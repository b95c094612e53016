import Protonet.Exchange

namespace Protonet.Swarm
open Record Sync

/-- The request whose response the actor still expects. -/
def Stage.request? : Stage → Option SyncRequest
  | .asked request => some request
  | .answered request _ => some request
  | _ => none

structure InStep (Fair : RequestId → Stage → Prop) (peer : PeerId) (x : Exchange) : Prop where
  outstanding : ∀ g ∈ x.agenda, ∀ id, id ∈ g.outstanding ↔ id ∈ x.flight
  idle : x.agenda = none → ∀ id, id ∉ x.flight
  fresh : ∀ id ∈ x.flight, id < x.next
  pending : ∀ id, ∀ stage ∈ x.flight.lookup id, ∀ request ∈ stage.request?,
    x.pending.lookup id = some (pendingOf peer request)
  fair : ∀ id, ∀ stage ∈ x.flight.lookup id, Fair id stage

/-- The bucket is queued, or some stage in flight pursues it. -/
def Chased (Pursues : Stage → Prop) (bucket : Int64) (x : Exchange) : Prop :=
  (∃ g ∈ x.agenda, bucket ∈ g.buckets) ∨ ∃ id, ∃ stage ∈ x.flight.lookup id, Pursues stage

variable {Fair : RequestId → Stage → Prop} {Pursues : Stage → Prop} {peer : PeerId}
  {x x' : Exchange} {id : RequestId} {stage : Stage} {request : SyncRequest} {bucket b : Int64}
  {pending : AList fun _ : RequestId => PendingSync}

lemma mem_of_lookup {flight : Flight} (h : stage ∈ flight.lookup id) : id ∈ flight :=
  AList.lookup_isSome.mp (Option.isSome_of_mem h)

lemma insert_erase (flight : Flight) (id : RequestId) (stage : Stage) :
    (flight.erase id).insert id stage = flight.insert id stage := by
  apply AList.ext
  simp only [AList.entries_insert, AList.erase]
  rw [List.kerase_of_notMem_keys (List.notMem_keys_kerase id flight.nodupKeys)]

lemma InStep.mono {Fair' : RequestId → Stage → Prop} (h : InStep Fair peer x)
    (hfair : ∀ id stage, Fair id stage → Fair' id stage) : InStep Fair' peer x :=
  ⟨h.outstanding, h.idle, h.fresh, h.pending, fun id stage hs => hfair id stage (h.fair id stage hs)⟩

lemma InStep.opened (h : InStep Fair peer x) (hid : id ∈ x.flight) : x.agenda ≠ none :=
  fun hnone => h.idle hnone id hid

lemma InStep.next_notMem (h : InStep Fair peer x) : x.next ∉ x.flight :=
  fun hmem => lt_irrefl _ (h.fresh _ hmem)

lemma InStep.ask (h : InStep Fair peer x) (hopen : x.agenda ≠ none)
    (hfair : Fair x.next (.asked request)) : InStep Fair peer (x.ask peer request) where
  outstanding g hg id := by
    obtain ⟨g₀, hg₀, rfl⟩ := Option.mem_map.mp hg
    rw [Exchange.ask, AList.mem_insert, Agenda.await, Finset.mem_insert, h.outstanding g₀ hg₀]
  idle hnone := by
    rw [Exchange.ask, Option.map_eq_none_iff] at hnone
    exact absurd hnone hopen
  fresh id hid := by
    rcases (AList.mem_insert _).mp hid with rfl | hid
    · exact Nat.lt_succ_self _
    · exact (h.fresh id hid).trans (Nat.lt_succ_self _)
  pending id stage hs r hr := by
    rw [Exchange.ask] at hs ⊢
    by_cases hid : id = x.next
    · subst hid
      rw [AList.lookup_insert, Option.mem_some_iff] at hs
      subst hs
      rw [Stage.request?, Option.mem_some_iff] at hr
      rw [AList.lookup_insert, hr]
    · rw [AList.lookup_insert_ne hid] at hs ⊢
      exact h.pending id stage hs r hr
  fair id stage hs := by
    rw [Exchange.ask] at hs
    by_cases hid : id = x.next
    · subst hid
      rw [AList.lookup_insert, Option.mem_some_iff] at hs
      exact hs ▸ hfair
    · rw [AList.lookup_insert_ne hid] at hs
      exact h.fair id stage hs

lemma InStep.settle (h : InStep Fair peer x) (hid : id ∈ x.flight)
    (pending : AList fun _ : RequestId => PendingSync)
    (hpending : ∀ id' ≠ id, pending.lookup id' = x.pending.lookup id') :
    InStep Fair peer { x.settle id with pending } where
  outstanding g hg id' := by
    obtain ⟨g₀, hg₀, rfl⟩ := Option.mem_map.mp hg
    rw [Exchange.settle, AList.mem_erase, Agenda.settle, Finset.mem_erase, h.outstanding g₀ hg₀]
  idle hnone := by
    rw [Exchange.settle, Option.map_eq_none_iff] at hnone
    exact absurd hnone (h.opened hid)
  fresh id' hid' := h.fresh id' (AList.mem_erase.mp hid').2
  pending id' stage hs r hr := by
    rw [Exchange.settle] at hs
    have hne : id' ≠ id := (AList.mem_erase.mp (mem_of_lookup hs)).1
    rw [AList.lookup_erase_ne hne] at hs
    rw [hpending id' hne]
    exact h.pending id' stage hs r hr
  fair id' stage hs := by
    rw [Exchange.settle] at hs
    have hne : id' ≠ id := (AList.mem_erase.mp (mem_of_lookup hs)).1
    rw [AList.lookup_erase_ne hne] at hs
    exact h.fair id' stage hs

lemma InStep.put (h : InStep Fair peer x) (hid : id ∈ x.flight) (hfair : Fair id stage)
    (hpending : ∀ id' ≠ id, pending.lookup id' = x.pending.lookup id')
    (hrequest : ∀ request ∈ stage.request?, pending.lookup id = some (pendingOf peer request)) :
    InStep Fair peer { x with pending, flight := x.flight.insert id stage } where
  outstanding g hg id' := by
    rw [AList.mem_insert, h.outstanding g hg]
    exact ⟨.inr, fun hmem => hmem.elim (fun heq => heq ▸ hid) fun hmem => hmem⟩
  idle hnone := absurd hnone (h.opened hid)
  fresh id' hid' := by
    rcases (AList.mem_insert _).mp hid' with rfl | hid'
    · exact h.fresh _ hid
    · exact h.fresh id' hid'
  pending id' stage' hs r hr := by
    by_cases hne : id' = id
    · subst hne
      rw [AList.lookup_insert, Option.mem_some_iff] at hs
      exact hrequest r (hs ▸ hr)
    · rw [AList.lookup_insert_ne hne] at hs
      rw [hpending id' hne]
      exact h.pending id' stage' hs r hr
  fair id' stage' hs := by
    by_cases hne : id' = id
    · subst hne
      rw [AList.lookup_insert, Option.mem_some_iff] at hs
      exact hs ▸ hfair
    · rw [AList.lookup_insert_ne hne] at hs
      exact h.fair id' stage' hs

lemma InStep.requeue (h : InStep Fair peer x) {g : Agenda} (hg : x.agenda = some g)
    (buckets : List Int64) : InStep Fair peer { x with agenda := some { g with buckets } } where
  outstanding g' hg' id := by
    obtain rfl := Option.mem_some_iff.mp hg'
    exact h.outstanding g hg id
  idle hnone := by cases hnone
  fresh := h.fresh
  pending := h.pending
  fair := h.fair

lemma InStep.pumps (h : InStep Fair peer x)
    (hfair : ∀ id bucket, Fair id (.asked (pageRequest bucket none)))
    (hpumps : Exchange.Pumps peer x x') : InStep Fair peer x' := by
  induction hpumps with
  | idle => exact h
  | wait => exact h
  | @finish x hdone =>
    refine ⟨nofun, fun _ id hid => ?_, h.fresh, h.pending, h.fair⟩
    have hmem := (h.outstanding _ hdone id).mpr hid
    simp at hmem
  | next hagenda _ ih => exact ih ((h.requeue hagenda _).ask nofun (hfair _ _))

lemma InStep.fetch (h : InStep Fair peer x) (hopen : x.agenda ≠ none)
    (missing : List RecordId) (hfair : missing ≠ [] → Fair x.next (.asked (.getRecords missing))) :
    InStep Fair peer (x.fetch peer missing) := by
  unfold Exchange.fetch
  split_ifs with hne
  · exact h.ask hopen (hfair hne)
  · exact h

lemma fetch_agenda {missing : List RecordId} (hopen : x.agenda ≠ none) :
    (x.fetch peer missing).agenda ≠ none := by
  unfold Exchange.fetch
  split_ifs
  · rwa [Exchange.ask, ne_eq, Option.map_eq_none_iff]
  · exact hopen

lemma InStep.goOn (h : InStep Fair peer x) (b : Int64) (nextCursor : Option RecordId)
    (hfair : ∀ cursor ∈ nextCursor, Fair x.next (.asked (pageRequest b (some cursor)))) :
    InStep Fair peer (x.goOn peer b nextCursor) := by
  cases nextCursor with
  | none => exact h
  | some cursor =>
    unfold Exchange.goOn Exchange.continueBucket
    dsimp only
    split
    · exact h
    · next g hg =>
      split_ifs
      · exact h.ask (by rw [hg]; nofun) (hfair cursor rfl)
      · exact h.requeue hg _

lemma chased_ask (h : Pursues (.asked request)) : Chased Pursues bucket (x.ask peer request) :=
  .inr ⟨x.next, _, AList.lookup_insert _, h⟩

lemma Chased.ask (h : Chased Pursues bucket x) (hx : InStep Fair peer x) :
    Chased Pursues bucket (x.ask peer request) := by
  rcases h with ⟨g, hg, hb⟩ | ⟨id, stage, hs, hp⟩
  · exact .inl ⟨g.await x.next, Option.mem_map_of_mem _ hg, hb⟩
  · refine .inr ⟨id, stage, ?_, hp⟩
    have hne : id ≠ x.next := fun heq => hx.next_notMem (heq ▸ mem_of_lookup hs)
    rwa [Exchange.ask, AList.lookup_insert_ne hne]

lemma Chased.settle (h : Chased Pursues bucket x) (hid : stage ∈ x.flight.lookup id)
    (pending : AList fun _ : RequestId => PendingSync) :
    Pursues stage ∨ Chased Pursues bucket { x.settle id with pending } := by
  rcases h with ⟨g, hg, hb⟩ | ⟨id', stage', hs, hp⟩
  · exact .inr (.inl ⟨g.settle id, Option.mem_map_of_mem _ hg, hb⟩)
  · by_cases hne : id' = id
    · subst hne
      exact .inl (Option.mem_unique hs hid ▸ hp)
    · refine .inr (.inr ⟨id', stage', ?_, hp⟩)
      rwa [Exchange.settle, AList.lookup_erase_ne hne]

lemma Chased.put (h : Chased Pursues bucket x) {old : Stage} (hid : old ∈ x.flight.lookup id)
    (hp : Pursues old → Pursues stage) :
    Chased Pursues bucket { x with pending, flight := x.flight.insert id stage } := by
  rcases h with ⟨g, hg, hb⟩ | ⟨id', stage', hs, hp'⟩
  · exact .inl ⟨g, hg, hb⟩
  · by_cases hne : id' = id
    · subst hne
      exact .inr ⟨id', stage, AList.lookup_insert _, hp (Option.mem_unique hs hid ▸ hp')⟩
    · refine .inr ⟨id', stage', ?_, hp'⟩
      rwa [AList.lookup_insert_ne hne]

lemma Chased.pumps (h : Chased Pursues bucket x) (hx : InStep Fair peer x)
    (hfair : ∀ id bucket, Fair id (.asked (pageRequest bucket none)))
    (hp : Pursues (.asked (pageRequest bucket none))) (hpumps : Exchange.Pumps peer x x') :
    Chased Pursues bucket x' := by
  induction hpumps with
  | idle => exact h
  | wait => exact h
  | finish hdone =>
    rcases h with ⟨g, hg, hb⟩ | ⟨id, stage, hs, -⟩
    · rw [hdone, Option.mem_some_iff] at hg
      subst hg
      simp at hb
    · have hmem := (hx.outstanding _ hdone id).mpr (mem_of_lookup hs)
      simp at hmem
  | @next x x' b buckets outstanding hagenda _ ih =>
    have hy := hx.requeue hagenda buckets
    refine ih ?_ (hy.ask nofun (hfair _ _))
    rcases h with ⟨g, hg, hb⟩ | hflight
    · rw [hagenda, Option.mem_some_iff] at hg
      subst hg
      rcases List.mem_cons.mp hb with rfl | hb
      · exact chased_ask hp
      · exact Chased.ask (.inl ⟨_, rfl, hb⟩) hy
    · exact Chased.ask (.inr hflight) hy

lemma Chased.fetch (h : Chased Pursues bucket x) (hx : InStep Fair peer x)
    {missing : List RecordId} : Chased Pursues bucket (x.fetch peer missing) := by
  unfold Exchange.fetch
  split_ifs
  · exact h.ask hx
  · exact h

lemma Chased.goOn (h : Chased Pursues bucket x) (hx : InStep Fair peer x)
    {nextCursor : Option RecordId} : Chased Pursues bucket (x.goOn peer b nextCursor) := by
  cases nextCursor with
  | none => exact h
  | some cursor =>
    unfold Exchange.goOn Exchange.continueBucket
    dsimp only
    split
    · exact h
    · next g hg =>
      split_ifs
      · exact h.ask hx
      · rcases h with ⟨g', hg', hb⟩ | hflight
        · rw [hg, Option.mem_some_iff] at hg'
          subst hg'
          exact .inl ⟨_, rfl, List.mem_cons_of_mem _ hb⟩
        · exact .inr hflight

/-- Going on with a bucket keeps it chased, by the next page or from its start. -/
lemma chased_goOn {cursor : RecordId} (hopen : x.agenda ≠ none)
    (hp : Pursues (.asked (pageRequest bucket (some cursor)))) :
    Chased Pursues bucket (x.goOn peer bucket (some cursor)) := by
  unfold Exchange.goOn Exchange.continueBucket
  dsimp only
  split
  · next hnone => exact absurd hnone hopen
  · split_ifs
    · exact chased_ask hp
    · exact .inl ⟨_, rfl, List.mem_cons_self⟩

/-- A session with something to chase is not over. -/
lemma Chased.opened (h : Chased Pursues bucket x) (hx : InStep Fair peer x) :
    x.agenda ≠ none := by
  rcases h with ⟨g, hg, -⟩ | ⟨id, stage, hs, -⟩
  · rw [Option.mem_def.mp hg]
    nofun
  · exact hx.opened (mem_of_lookup hs)

end Protonet.Swarm
