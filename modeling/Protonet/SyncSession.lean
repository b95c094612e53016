import Protonet.SyncTrace

namespace Protonet.SyncSession
open MachineInt StepRun Postcard Record Replay Database Sync Queries Swarm Paging InventoryDigests
  SyncWorld SyncProgress SyncLedger SyncAwaited SyncTrace PageWalk

def pageLog (requests : List (RequestId × SyncRequest)) :
    List (RequestId × Option (Int64 × Option RecordId)) :=
  requests.map fun e => (e.1, page? e.2)

def AnsweredBy (peer : PeerId) (jobs : List (RequestId × PeerId × Job)) (id : RequestId)
    (bucket : Int64) (nextCursor : Option RecordId) : Prop :=
  ∃ ids, (id, peer, .ids bucket ids nextCursor) ∈ jobs

/-- Where a session stands that asked for these requests. -/
structure Stands (peer : PeerId) (remote : SignatureDatabase) (opened : RequestId)
    (differing : List Int64) (requests : List (RequestId × SyncRequest))
    (jobs : List (RequestId × PeerId × Job)) (waiting : Finset RequestId) (queue : List Int64) :
    Prop where
  walk : Walk place (knownIds remote) (AnsweredBy peer jobs) differing (pageLog requests) waiting
    queue
  own : ∀ id ∈ waiting, ∃ request, (id, request) ∈ requests
  opening : opened ∈ waiting → queue = [] ∧ pages (pageLog requests) = []
  inventories : ∀ id, (id, .getInventory) ∈ requests → id = opened
  few : differing.length ≤ MAX_BUCKETS

variable {K : Primitives} {peer p q : PeerId} {remote : SignatureDatabase} {now : Int64}
  {x x' : Books} {id n opened : RequestId} {g : Agenda} {f : Agenda → Agenda} {request : SyncRequest}
  {b bucket : Int64} {missing : List RecordId} {nextCursor cursor : Option RecordId} {c : RecordId}
  {e : Event} {job : Job} {requests : List (RequestId × SyncRequest)} {differing queue : List Int64}
  {jobs jobs' : List (RequestId × PeerId × Job)} {waiting : Finset RequestId}

lemma mem_pageLog {page : Option (Int64 × Option RecordId)} :
    (id, page) ∈ pageLog requests ↔ ∃ request, (id, request) ∈ requests ∧ page? request = page := by
  unfold pageLog
  rw [List.mem_map]
  constructor
  · rintro ⟨⟨id', r⟩, hmem, heq⟩
    obtain ⟨rfl, rfl⟩ := Prod.mk.inj heq
    exact ⟨r, hmem, rfl⟩
  · rintro ⟨r, hmem, rfl⟩
    exact ⟨_, hmem, rfl⟩

lemma pageLog_append : pageLog (requests ++ [(n, request)]) = pageLog requests ++ [(n, page? request)] :=
  List.map_append

lemma pages_pageLog : pages (pageLog requests) = requests.filterMap fun r => page? r.2 :=
  List.filterMap_map ..

lemma fresh_pageLog (h : ∀ r, (n, r) ∉ requests) : ∀ page, (n, page) ∉ pageLog requests := by
  intro page hmem
  obtain ⟨r, hr, -⟩ := mem_pageLog.mp hmem
  exact h r hr

lemma Stands.mono (h : Stands peer remote opened differing requests jobs waiting queue)
    (hjobs : jobs ⊆ jobs') : Stands peer remote opened differing requests jobs' waiting queue :=
  ⟨h.walk.mono fun _ _ _ hans => hans.imp fun _ hmem => hjobs hmem, h.own, h.opening,
    h.inventories, h.few⟩

lemma Stands.settle (h : Stands peer remote opened differing requests jobs waiting queue)
    (hdone : ∀ b c, (id, some (b, c)) ∈ pageLog requests →
      ∃ next, AnsweredBy peer jobs id b next ∧ ∀ c' ∈ next, (b, some c') ∈ pages (pageLog requests)) :
    Stands peer remote opened differing requests jobs (waiting.erase id) queue :=
  ⟨h.walk.settle hdone, fun id' hid => h.own id' (Finset.mem_of_mem_erase hid),
    fun hid => h.opening (Finset.mem_of_mem_erase hid), h.inventories, h.few⟩

lemma Stands.own_append (h : Stands peer remote opened differing requests jobs waiting queue)
    {waiting' : Finset RequestId} (hsub : waiting' ⊆ insert n waiting) :
    ∀ id ∈ waiting', ∃ r, (id, r) ∈ requests ++ [(n, request)] := by
  intro id hid
  rcases Finset.mem_insert.mp (hsub hid) with rfl | hid
  · exact ⟨request, List.mem_append_right _ (List.mem_singleton_self _)⟩
  · obtain ⟨r, hr⟩ := h.own id hid
    exact ⟨r, List.mem_append_left _ hr⟩

lemma Stands.inventories_append (h : Stands peer remote opened differing requests jobs waiting queue)
    (hr : request ≠ .getInventory) :
    ∀ id, (id, .getInventory) ∈ requests ++ [(n, request)] → id = opened := by
  intro id hid
  rcases List.mem_append.mp hid with hid | hid
  · exact h.inventories id hid
  · exact absurd (Prod.mk.inj (List.mem_singleton.mp hid)).2.symm hr

lemma Stands.other (h : Stands peer remote opened differing requests jobs waiting queue)
    (hpage : page? request = none) (hr : request ≠ .getInventory) (hn : ∀ r, (n, r) ∉ requests)
    (hne : n ≠ opened) :
    Stands peer remote opened differing (requests ++ [(n, request)]) jobs (insert n waiting)
      queue where
  walk := by
    rw [pageLog_append, hpage]
    exact h.walk.other (fresh_pageLog hn)
  own := h.own_append subset_rfl
  opening hmem := by
    rw [pageLog_append, hpage, pages_other]
    exact h.opening ((Finset.mem_insert.mp hmem).resolve_left hne.symm)
  inventories := h.inventories_append hr
  few := h.few

lemma Stands.first (h : Stands peer remote opened differing requests jobs waiting (b :: queue))
    (hn : ∀ r, (n, r) ∉ requests) (hne : n ≠ opened) :
    Stands peer remote opened differing (requests ++ [(n, pageRequest b none)]) jobs
      (insert n waiting) queue where
  walk := by
    rw [pageLog_append]
    exact h.walk.first (fresh_pageLog hn)
  own := h.own_append subset_rfl
  opening hmem := by
    rcases Finset.mem_insert.mp hmem with heq | hmem
    · exact absurd heq.symm hne
    · exact absurd (h.opening hmem).1 (List.cons_ne_nil b queue)
  inventories := h.inventories_append nofun
  few := h.few

lemma Stands.next (h : Stands peer remote opened differing requests jobs waiting queue)
    (hid : (id, request) ∈ requests) (hone : ∀ r, (id, r) ∈ requests → r = request)
    (hpage : page? request = some (b, cursor)) (hw : id ∈ waiting) (hopen : opened ∉ waiting)
    (hanswered : AnsweredBy peer jobs id b (some c)) (hlater : place cursor < place (some c))
    (hknown : c ∈ knownIds remote) (hn : ∀ r, (n, r) ∉ requests) (hne : n ≠ opened) :
    Stands peer remote opened differing (requests ++ [(n, pageRequest b (some c))]) jobs
      (insert n (waiting.erase id)) queue where
  walk := by
    rw [pageLog_append]
    refine h.walk.next (mem_pageLog.mpr ⟨request, hid, hpage⟩) (fun page hmem => ?_) hw hanswered
      hlater hknown (fresh_pageLog hn)
    obtain ⟨r, hr, rfl⟩ := mem_pageLog.mp hmem
    rw [hone r hr, hpage]
  own := h.own_append (Finset.insert_subset_insert n (Finset.erase_subset id waiting))
  opening hmem := by
    rcases Finset.mem_insert.mp hmem with heq | hmem
    · exact absurd heq.symm hne
    · exact absurd (Finset.mem_of_mem_erase hmem) hopen
  inventories := h.inventories_append nofun
  few := h.few

lemma stands_opened : Stands peer remote opened [] [(opened, .getInventory)] jobs {opened} [] where
  walk := walk_begin rfl .nil
  own id hid := by
    rw [Finset.mem_singleton.mp hid]
    exact ⟨_, List.mem_singleton_self _⟩
  opening _ := ⟨rfl, rfl⟩
  inventories id hid := (Prod.mk.inj (List.mem_singleton.mp hid)).1
  few := Nat.zero_le _

/-- With the inventory compared, the buckets that differ are queued. -/
lemma Stands.compared (h : Stands peer remote opened differing requests jobs waiting queue)
    (hopen : opened ∈ waiting) {buckets : List Int64} (hnodup : buckets.Nodup)
    (hfew : buckets.length ≤ MAX_BUCKETS) :
    Stands peer remote opened buckets requests jobs (waiting.erase opened) buckets where
  walk := walk_begin (h.opening hopen).2 hnodup
  own id hid := h.own id (Finset.mem_of_mem_erase hid)
  opening hmem := absurd rfl (Finset.ne_of_mem_erase hmem)
  inventories := h.inventories
  few := hfew

/-- The requests for records follow pages that were compared, or results of earlier requests. -/
def Frugal (peer : PeerId) (opened : RequestId) (x : Books) (waiting : Finset RequestId) : Prop :=
  Thrifty (opened + 1) (expected peer x.toDues \ waiting).card
    (pageLog (requestsTo peer opened x.sent)) waiting

structure Live (peer : PeerId) (remote : SignatureDatabase) (opened : RequestId)
    (differing : List Int64) (x : Books) (waiting : Finset RequestId) (queue : List Int64) : Prop
    where
  stands : Stands peer remote opened differing (requestsTo peer opened x.sent) x.jobs waiting queue
  frugal : Frugal peer opened x waiting

def Resting (peer : PeerId) (remote : SignatureDatabase) (opened : RequestId)
    (differing : List Int64) (x : Books) : Prop :=
  match x.agenda peer with
  | some g => Live peer remote opened differing x g.outstanding g.buckets
  | none => Live peer remote opened differing x ∅ []

lemma resting_some (hg : x.agenda peer = some g)
    (h : Live peer remote opened differing x g.outstanding g.buckets) :
    Resting peer remote opened differing x := by
  unfold Resting
  rwa [hg]

lemma next_fresh (htraced : Traced K peer remote x) :
    ∀ r, (x.next, r) ∉ requestsTo peer opened x.sent :=
  fun _ hmem => lt_irrefl _ (htraced.fresh _ (mem_requestsTo.mp hmem).1)

lemma requests_ask (hopened : opened < x.next) :
    requestsTo peer opened (x.ask peer request).sent =
      requestsTo peer opened x.sent ++ [(x.next, request)] := requestsTo_send hopened.le

lemma expected_ask :
    expected peer (x.ask peer request).toDues \ insert x.next waiting ⊆
      expected peer x.toDues \ waiting := by
  rw [show expected peer (x.ask peer request).toDues = _ from expected_send,
    Finset.insert_sdiff_insert]
  exact Finset.sdiff_subset_sdiff subset_rfl (Finset.subset_insert _ _)

lemma Frugal.page (htraced : Traced K peer remote x) (hopened : opened < x.next)
    (h : Frugal peer opened x waiting) :
    Frugal peer opened (x.ask peer (pageRequest bucket cursor)) (insert x.next waiting) := by
  unfold Frugal
  rw [requests_ask hopened, pageLog_append]
  exact (Thrifty.page h (fresh_pageLog (next_fresh htraced))).of_le
    (Finset.card_le_card expected_ask)

/-- A settled request is waited for no longer, and no longer expected. -/
lemma expected_settle (hgone : id ∉ expected peer x.toDues) :
    expected peer x.toDues \ waiting.erase id ⊆ expected peer x.toDues \ waiting := by
  intro i hi
  obtain ⟨hmem, hnot⟩ := Finset.mem_sdiff.mp hi
  have hne : i ≠ id := fun heq => hgone (heq ▸ hmem)
  exact Finset.mem_sdiff.mpr ⟨hmem, fun hw => hnot (Finset.mem_erase.mpr ⟨hne, hw⟩)⟩

lemma Frugal.settle (hgone : id ∉ expected peer x.toDues) (h : Frugal peer opened x waiting) :
    Frugal peer opened x (waiting.erase id) :=
  (Thrifty.settle h).of_le (Finset.card_le_card (expected_settle hgone))

lemma Live.pumps (htraced : Traced K peer remote x) (hopened : opened < x.next)
    (h : Live peer remote opened differing x g.outstanding g.buckets) (hg : x.agenda peer = some g)
    (hpumps : Books.Pumps peer x x') : Resting peer remote opened differing x' := by
  induction hpumps generalizing g with
  | idle hnone => exact absurd (hnone.symm.trans hg) nofun
  | wait => exact resting_some hg h
  | @finish x hdone =>
    obtain rfl := Option.some.inj (hdone.symm.trans hg)
    unfold Resting
    rw [show (x.close peer).agenda peer = none from Books.put_agenda]
    exact ⟨h.stands, h.frugal⟩
  | @next x x' bucket buckets outstanding hagenda hroom _ ih =>
    obtain rfl := Option.some.inj (hagenda.symm.trans hg)
    have hpopped : Traced K peer remote (x.amend peer fun g => { g with buckets }) := htraced.amend
    have hsent : requestsTo peer opened ((x.amend peer fun g => { g with buckets }).ask peer
        (pageRequest bucket none)).sent =
          requestsTo peer opened x.sent ++ [(x.next, pageRequest bucket none)] :=
      requests_ask (x := x.amend peer fun g => { g with buckets }) hopened
    refine ih (g := (⟨buckets, outstanding⟩ : Agenda).await x.next) (hpopped.ask plain_page)
      (hopened.trans (Nat.lt_succ_self _)) ⟨?_, Frugal.page hpopped hopened h.frugal⟩ ?_
    · rw [hsent]
      exact h.stands.first (next_fresh htraced) hopened.ne'
    · rw [Books.ask_agenda, Books.amend_agenda, hagenda]
      rfl

lemma request_unique (htraced : Traced K peer remote x)
    (hid : (id, request) ∈ requestsTo peer opened x.sent) :
    ∀ r, (id, r) ∈ requestsTo peer opened x.sent → r = request :=
  fun _ hr => (htraced.unique (mem_requestsTo.mp hr).1 (mem_requestsTo.mp hid).1).2

def fetched (missing : List RecordId) (n : RequestId) (waiting : Finset RequestId) :
    Finset RequestId := if missing = [] then waiting else insert n waiting

lemma fetch_cases : missing = [] ∧ x.fetch peer missing = x ∧ fetched missing x.next waiting = waiting ∨
    x.fetch peer missing = x.ask peer (.getRecords missing) ∧
      fetched missing x.next waiting = insert x.next waiting := by
  unfold Books.fetch fetched
  by_cases h : missing = []
  · exact .inl ⟨h, if_neg (not_not.mpr h), if_pos h⟩
  · exact .inr ⟨if_pos h, if_neg h⟩

lemma Stands.fetch (htraced : Traced K peer remote x) (hopened : opened < x.next)
    (h : Stands peer remote opened differing (requestsTo peer opened x.sent) x.jobs waiting queue) :
    Stands peer remote opened differing (requestsTo peer opened (x.fetch peer missing).sent)
      (x.fetch peer missing).jobs (fetched missing x.next waiting) queue := by
  rcases @fetch_cases peer x missing waiting with ⟨-, hfetch, hwaiting⟩ | ⟨hfetch, hwaiting⟩
  · rw [hfetch, hwaiting]
    exact h
  · rw [hfetch, hwaiting, requests_ask hopened]
    exact h.other rfl nofun (next_fresh htraced) hopened.ne'

lemma frugal_fetch (htraced : Traced K peer remote x) (hopened : opened < x.next)
    (h : Thrifty (opened + 1) ((expected peer x.toDues \ waiting).card + 1)
      (pageLog (requestsTo peer opened x.sent)) waiting) :
    Frugal peer opened (x.fetch peer missing) (fetched missing x.next waiting) := by
  rcases @fetch_cases peer x missing waiting with ⟨-, hfetch, hwaiting⟩ | ⟨hfetch, hwaiting⟩
  · rw [hfetch, hwaiting]
    exact h.of_le (Nat.le_succ _)
  · unfold Frugal
    rw [hfetch, hwaiting, requests_ask hopened, pageLog_append]
    exact (h.other (fresh_pageLog (next_fresh htraced))).of_le (Finset.card_le_card expected_ask)

lemma fetch_agenda (hg : x.agenda peer = some ⟨queue, waiting⟩) :
    (x.fetch peer missing).agenda peer = some ⟨queue, fetched missing x.next waiting⟩ := by
  rcases @fetch_cases peer x missing waiting with ⟨-, hfetch, hwaiting⟩ | ⟨hfetch, hwaiting⟩
  · rw [hfetch, hwaiting]
    exact hg
  · rw [hfetch, hwaiting, Books.ask_agenda, hg]
    rfl

lemma fetched_card :
    (fetched missing n waiting).card ≤ waiting.card + (if missing = [] then 0 else 1) := by
  unfold fetched
  split_ifs
  · exact le_rfl
  · exact Finset.card_insert_le _ _

lemma fetched_erase (h : n ≠ id) :
    (fetched missing n waiting).erase id = fetched missing n (waiting.erase id) := by
  unfold fetched
  split_ifs
  · rfl
  · exact Finset.erase_insert_of_ne h

lemma mem_fetched : id ∈ fetched missing n waiting → id = n ∨ id ∈ waiting := by
  unfold fetched
  split_ifs
  · exact .inr
  · exact Finset.mem_insert.mp

lemma subset_fetched : waiting ⊆ fetched missing n waiting := by
  unfold fetched
  split_ifs
  · exact subset_rfl
  · exact Finset.subset_insert _ _

lemma fetch_jobs : (x.fetch peer missing).jobs = x.jobs := by
  unfold Books.fetch
  split_ifs <;> rfl

lemma fetch_next : x.next ≤ (x.fetch peer missing).next := by
  unfold Books.fetch
  split_ifs
  · exact Nat.le_succ _
  · exact le_rfl

lemma fetch_requests (hopened : opened < x.next) :
    requestsTo peer opened x.sent ⊆ requestsTo peer opened (x.fetch peer missing).sent := by
  rcases @fetch_cases peer x missing ∅ with ⟨-, hfetch, -⟩ | ⟨hfetch, -⟩
  · rw [hfetch]
    exact List.Subset.refl _
  · rw [hfetch, requests_ask hopened]
    exact List.subset_append_left _ _

/-- A page in hand, with the request for its records sent. -/
structure InHand (peer : PeerId) (remote : SignatureDatabase) (opened : RequestId)
    (differing : List Int64) (id : RequestId) (request : SyncRequest) (x : Books)
    (waiting : Finset RequestId) (queue : List Int64) : Prop where
  stands : Stands peer remote opened differing (requestsTo peer opened x.sent) x.jobs waiting queue
  frugal : Frugal peer opened x (waiting.erase id)
  agenda : x.agenda peer = some ⟨queue, waiting.erase id⟩
  waits : id ∈ waiting
  begun : opened ∉ waiting
  sent : (id, request) ∈ requestsTo peer opened x.sent
  given : opened < x.next

lemma inHand_fetch (missing : List RecordId) (htraced : Traced K peer remote x)
    (hopened : opened < x.next)
    (h : Live peer remote opened differing x g.outstanding g.buckets) (hg : x.agenda peer = some g)
    (hgone : id ∉ expected peer x.toDues) (hw : id ∈ g.outstanding)
    (hid : (id, request) ∈ requestsTo peer opened x.sent) (hpage : page? request = some (b, cursor)) :
    InHand peer remote opened differing id request ((x.settle peer id).fetch peer missing)
      (fetched missing x.next g.outstanding) g.buckets := by
  have hlog : (id, some (b, cursor)) ∈ pageLog (requestsTo peer opened x.sent) :=
    mem_pageLog.mpr ⟨request, hid, hpage⟩
  have hopen : opened ∉ g.outstanding := by
    intro hmem
    have hnone := (h.stands.opening hmem).2
    rw [List.eq_nil_iff_forall_not_mem] at hnone
    exact hnone _ (mem_pages.mpr ⟨id, hlog⟩)
  have hsettled : Traced K peer remote (x.settle peer id) := htraced.amend
  have hne : x.next ≠ id := fun heq => next_fresh htraced request (heq ▸ hid)
  have hagenda : (x.settle peer id).agenda peer = some ⟨g.buckets, g.outstanding.erase id⟩ :=
    Books.settle_agenda.trans (congrArg (Option.map _) hg)
  have hspare := (h.frugal.done hlog hw).of_le
    (Nat.succ_le_succ (Finset.card_le_card (@expected_settle peer x id g.outstanding hgone)))
  have herase := @fetched_erase id x.next missing g.outstanding hne
  exact {
    stands := Stands.fetch hsettled hopened h.stands
    frugal := herase ▸ frugal_fetch hsettled hopened hspare
    agenda := herase ▸ fetch_agenda hagenda
    waits := subset_fetched hw
    begun := fun hmem => (mem_fetched hmem).elim hopened.ne hopen
    sent := fetch_requests (x := x.settle peer id) hopened hid
    given := hopened.trans_le (fetch_next (x := x.settle peer id)) }

/-- The page is followed by its successor, if there is one and a request is free for it. -/
lemma InHand.goOn {queue : List Int64} (htraced : Traced K peer remote x)
    (h : InHand peer remote opened differing id request x waiting queue)
    (hpage : page? request = some (bucket, cursor))
    (hanswered : AnsweredBy peer x.jobs id bucket nextCursor)
    (hlater : ∀ c ∈ nextCursor, place cursor < place (some c) ∧ c ∈ knownIds remote)
    (hroom : nextCursor ≠ none → (waiting.erase id).card < MAX_PENDING_SYNC_REQUESTS_PER_PEER) :
    ∃ g, (x.goOn peer bucket nextCursor).agenda peer = some g ∧
      Live peer remote opened differing (x.goOn peer bucket nextCursor) g.outstanding g.buckets ∧
      opened < (x.goOn peer bucket nextCursor).next := by
  have hone := request_unique htraced h.sent
  cases nextCursor with
  | none =>
    refine ⟨_, h.agenda, ⟨h.stands.settle fun b c hmem => ?_, h.frugal⟩, h.given⟩
    obtain ⟨r, hr, hpage'⟩ := mem_pageLog.mp hmem
    rw [hone r hr, hpage] at hpage'
    obtain ⟨rfl, -⟩ := Prod.mk.inj (Option.some.inj hpage')
    exact ⟨none, hanswered, nofun⟩
  | some c =>
    obtain ⟨hplace, hknown⟩ := hlater c rfl
    have hfree : (waiting.erase id).card < MAX_PENDING_SYNC_REQUESTS_PER_PEER :=
      hroom nofun
    have hgo : x.goOn peer bucket (some c) = x.ask peer (pageRequest bucket (some c)) := by
      unfold Books.goOn Books.continueBucket
      dsimp only
      rw [h.agenda]
      exact if_pos hfree
    have hn : ∀ r, (x.next, r) ∉ requestsTo peer opened x.sent := next_fresh htraced
    rw [hgo]
    refine ⟨(⟨queue, waiting.erase id⟩ : Agenda).await x.next, ?_, ⟨?_, ?_⟩,
      h.given.trans (Nat.lt_succ_self _)⟩
    · rw [Books.ask_agenda, h.agenda]
      rfl
    · rw [requests_ask h.given]
      exact h.stands.next h.sent hone hpage h.waits h.begun hanswered hplace hknown hn
        h.given.ne'
    · exact Frugal.page htraced h.given h.frugal

lemma Live.settled (htraced : Traced K peer remote x) (hopened : opened < x.next)
    (h : Live peer remote opened differing x g.outstanding g.buckets) (hg : x.agenda peer = some g)
    (hgone : id ∉ expected peer x.toDues) (hid : (id, peer, request) ∈ x.sent)
    (hpage : page? request = none) (hpumps : Books.Pumps peer ((x.take id).settle peer id) x') :
    Resting peer remote opened differing x' := by
  refine Live.pumps (g := g.settle id) htraced.take.amend hopened
    ⟨?_, Frugal.settle (x := x) hgone h.frugal⟩ ?_ hpumps
  · refine h.stands.settle fun b c hmem => ?_
    obtain ⟨r, hr, hsome⟩ := mem_pageLog.mp hmem
    obtain ⟨-, rfl⟩ := htraced.unique (mem_requestsTo.mp hr).1 hid
    exact absurd (hpage.symm.trans hsome) nofun
  · exact Books.settle_agenda.trans (congrArg (Option.map _) hg)

/-- A waiting request is the one that a comparison of its answer fits. -/
lemma Live.origin (htraced : Traced K peer remote x)
    (h : Live peer remote opened differing x waiting queue) (hw : id ∈ waiting)
    (hjob : (id, peer, job) ∈ x.jobs) :
    ∃ request, (id, request) ∈ requestsTo peer opened x.sent ∧ Fits K remote request job := by
  obtain ⟨r, hr⟩ := h.stands.own id hw
  obtain ⟨request, hsent, hfits⟩ := htraced.jobs id job hjob
  obtain ⟨-, rfl⟩ := htraced.unique (mem_requestsTo.mp hr).1 hsent
  exact ⟨r, hr, hfits⟩

lemma Live.inventoryCompared {summary : InventorySummary} {db : SignatureDatabase}
    (htraced : Traced K peer remote x) (hopened : opened < x.next)
    (h : Live peer remote opened differing x g.outstanding g.buckets) (hg : x.agenda peer = some g)
    (hgone : id ∉ expected peer x.toDues) (hw : id ∈ g.outstanding)
    (hjob : (id, peer, .inventory summary) ∈ x.jobs) (hpumps : Books.Pumps peer (x.amend peer fun g =>
      ⟨differingBuckets (inventory K db now) summary, g.outstanding.erase id⟩) x') :
    Resting peer remote opened (differingBuckets (inventory K db now) summary) x' := by
  obtain ⟨request, hid, hfits⟩ := h.origin htraced hw hjob
  cases request with
  | getRecordIds => exact hfits.elim
  | getRecords => exact hfits.elim
  | getInventory =>
    obtain ⟨there, rfl⟩ := hfits
    obtain rfl := h.stands.inventories id hid
    refine Live.pumps (g := ⟨differingBuckets (inventory K db now) (inventory K remote there),
      g.outstanding.erase id⟩) htraced.amend hopened
        ⟨?_, Frugal.settle (x := x) hgone h.frugal⟩ ?_ hpumps
    · exact h.stands.compared hw differing_bounds.1 differing_bounds.2
    · rw [Books.amend_agenda, hg]
      rfl

lemma Live.pageCompared {ids : List RecordId} (htraced : Traced K peer remote x)
    (hopened : opened < x.next)
    (h : Live peer remote opened differing x g.outstanding g.buckets) (hg : x.agenda peer = some g)
    (hgone : id ∉ expected peer x.toDues) (hw : id ∈ g.outstanding)
    (hjob : (id, peer, .ids bucket ids nextCursor) ∈ x.jobs)
    (hroom : nextCursor ≠ none → (g.outstanding.erase id).card + (if missing = [] then 0 else 1) <
      MAX_PENDING_SYNC_REQUESTS_PER_PEER)
    (hpumps : Books.Pumps peer (((x.settle peer id).fetch peer missing).goOn peer bucket nextCursor)
      x') :
    Resting peer remote opened differing x' := by
  have hfetched : Traced K peer remote ((x.settle peer id).fetch peer missing) :=
    htraced.amend.fetch
  obtain ⟨request, hid, hfits⟩ := h.origin htraced hw hjob
  cases request with
  | getInventory => exact hfits.elim
  | getRecords => exact hfits.elim
  | getRecordIds b cursor limit =>
    obtain ⟨rfl, hlater⟩ := hfits
    have hhand := inHand_fetch missing htraced hopened h hg hgone hw hid rfl
    have hanswered : AnsweredBy peer ((x.settle peer id).fetch peer missing).jobs id bucket
        nextCursor := by
      unfold AnsweredBy
      rw [fetch_jobs]
      exact ⟨ids, hjob⟩
    have hne : x.next ≠ id := fun heq => next_fresh htraced _ (heq ▸ hid)
    obtain ⟨g', hg', hlive, hgiven⟩ := hhand.goOn hfetched rfl hanswered hlater fun hnext => by
      rw [fetched_erase hne]
      exact fetched_card.trans_lt (hroom hnext)
    exact Live.pumps hfetched.goOn hgiven hlive hg' hpumps

lemma Live.strayCompared (htraced : Traced K peer remote x) (hopened : opened < x.next)
    (h : Live peer remote opened differing x g.outstanding g.buckets) (hg : x.agenda peer = some g)
    (hw : id ∉ g.outstanding)
    (hspare : Thrifty (opened + 1) ((expected peer x.toDues \ g.outstanding).card + 1)
      (pageLog (requestsTo peer opened x.sent)) g.outstanding)
    (hpumps : Books.Pumps peer ((x.settle peer id).fetch peer missing) x') :
    Resting peer remote opened differing x' := by
  have hsettled : Traced K peer remote (x.settle peer id) := htraced.amend
  have hagenda : (x.settle peer id).agenda peer = some ⟨g.buckets, g.outstanding⟩ := by
    rw [Books.settle_agenda, hg]
    exact congrArg (fun w => some (⟨g.buckets, w⟩ : Agenda)) (Finset.erase_eq_of_notMem hw)
  refine Live.pumps (g := ⟨g.buckets, fetched missing x.next g.outstanding⟩) hsettled.fetch
    (hopened.trans_le (fetch_next (x := x.settle peer id))) ⟨?_, ?_⟩ (fetch_agenda hagenda) hpumps
  · exact Stands.fetch hsettled hopened h.stands
  · exact frugal_fetch hsettled hopened hspare

/-- The session can be ended from outside. -/
def Departs (peer : PeerId) (e : Event) : Prop :=
  e = .snapshotTick ∨ ∃ connection, e = .connectionClosed peer connection

/-- No page was asked for twice, and requests are limited. -/
structure Within (peer : PeerId) (remote : SignatureDatabase) (opened : RequestId) (x : Books) :
    Prop where
  distinct : ((requestsTo peer opened x.sent).filterMap fun r => page? r.2).Nodup
  finite : (requestsTo peer opened x.sent).length ≤
    2 * (MAX_BUCKETS * (remote.records.rows.length + 1)) + (opened + 1)

def Outcome (peer : PeerId) (remote : SignatureDatabase) (opened : RequestId)
    (differing : List Int64) (e : Event) (x : Books) : Prop :=
  Resting peer remote opened differing x ∨
    Departs peer e ∧ x.agenda peer = none ∧ Within peer remote opened x

/-- A session walks through at most all cursors of all buckets, twice. -/
lemma Live.within (h : Live peer remote opened differing x waiting queue) :
    Within peer remote opened x where
  distinct := by
    rw [← pages_pageLog]
    exact h.stands.walk.distinct
  finite := by
    have hknown : (knownIds remote).card ≤ remote.records.rows.length :=
      (List.toFinset_card_le _).trans_eq (List.length_map _)
    have hpages : (pages (pageLog (requestsTo peer opened x.sent))).length ≤
        MAX_BUCKETS * (remote.records.rows.length + 1) :=
      h.stands.walk.pages_length.trans (Nat.mul_le_mul h.stands.few (Nat.succ_le_succ hknown))
    have hlength := Thrifty.length_le h.frugal
    rw [show (pageLog (requestsTo peer opened x.sent)).length = _ from List.length_map _] at hlength
    omega

lemma dropAll_aside (ps : List PeerId) :
    (ps.foldl Books.drop x).toDues = x.toDues ∧
      ((ps.foldl Books.drop x).agenda peer = x.agenda peer ∨
        (ps.foldl Books.drop x).agenda peer = none) ∧ (ps.foldl Books.drop x).next = x.next := by
  refine dropAll_induction (P := fun x' => x'.toDues = x.toDues ∧
    (x'.agenda peer = x.agenda peer ∨ x'.agenda peer = none) ∧ x'.next = x.next)
    (fun x' p h => ?_) ⟨rfl, .inl rfl, rfl⟩ ps
  refine ⟨h.1, ?_, h.2.2⟩
  by_cases hp : peer = p
  · subst hp
    exact .inr Books.put_agenda
  · rw [show (x'.drop p).agenda peer = x'.agenda peer from Books.put_agenda_ne hp]
    exact h.2.1

lemma Live.aside (h : Live peer remote opened differing x waiting queue)
    (haside : Aside peer opened x x') : Live peer remote opened differing x' waiting queue := by
  constructor
  · rw [haside.requests]
    exact h.stands.mono haside.jobs
  · unfold Frugal
    rw [haside.requests]
    exact Thrifty.of_le h.frugal
      (Finset.card_le_card (Finset.sdiff_subset_sdiff haside.expects subset_rfl))

lemma Live.of_dues (h : Live peer remote opened differing x waiting queue)
    (hdues : x'.toDues = x.toDues) : Live peer remote opened differing x' waiting queue := by
  constructor
  · rw [hdues]
    exact h.stands
  · unfold Frugal
    rw [hdues]
    exact h.frugal

/-- A result of an earlier session spends what it was expected for. -/
lemma expected_spare (hid : id ∈ expected peer x.toDues) (hw : id ∉ waiting)
    (hgone : id ∉ expected peer (report e x).toDues) :
    (expected peer (report e x).toDues \ waiting).card + 1 ≤
      (expected peer x.toDues \ waiting).card := by
  refine Finset.card_lt_card ⟨Finset.sdiff_subset_sdiff expected_report subset_rfl, fun hsub => ?_⟩
  exact hgone (Finset.mem_sdiff.mp (hsub (Finset.mem_sdiff.mpr ⟨hid, hw⟩))).1

lemma Outcome.aside (h : Live peer remote opened differing x g.outstanding g.buckets)
    (hg : x.agenda peer = some g) (haside : Aside peer opened x x') :
    Outcome peer remote opened differing e x' :=
  .inl (resting_some (haside.agenda.trans hg) (h.aside haside))

lemma Live.given (htraced : Traced K peer remote x) (hwaiting : waiting ≠ ∅)
    (h : Live peer remote opened differing x waiting queue) : opened < x.next := by
  obtain ⟨id, hid⟩ := Finset.nonempty_iff_ne_empty.mpr hwaiting
  obtain ⟨r, hr⟩ := h.stands.own id hid
  obtain ⟨hsent, hle⟩ := mem_requestsTo.mp hr
  exact hle.trans_lt (htraced.fresh _ hsent)

lemma Resting.within (h : Resting peer remote opened differing x) :
    Within peer remote opened x := by
  unfold Resting at h
  split at h
  · exact h.within
  · exact h.within

end Protonet.SyncSession
