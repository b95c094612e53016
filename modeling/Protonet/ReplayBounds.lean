import Protonet.ReplayGuard

namespace Protonet.ReplayBounds
open Lru MachineInt Record Replay StepRun ReplayFloor ReplayGuard Ingestion

variable {s : ReplayState} {op : ReplayOp} {ops : List ReplayOp} {o : PeerId}
  {q W : UInt64} {now ttl records origins : ℕ}

/-- The numbers of a window lie at most its width below the highest one. -/
def Tight (W : UInt64) (w : OriginWindow) : Prop :=
  ∀ q ∈ w.accepted, q ≤ w.highest ∧ saturatingSub w.highest W ≤ q

def retainedOrigins (s : ReplayState) : Finset PeerId :=
  s.origins.keys.toFinset ∪ s.persistentHighest.keys.toFinset

def accepted (ops : List ReplayOp) : Finset PeerId := acceptedOrigins (ops.map .op)

structure Bounded (records origins : ℕ) (W : UInt64) (ops : List ReplayOp) (s : ReplayState) :
    Prop where
  recent : s.recentlySeen.cap = max records 1
  room : s.origins.cap = max origins 1
  window : s.sequenceWindow = W
  tight : ∀ o w, s.origins.peek o = some w → Tight W w
  windows : ∀ o ∈ s.origins.keys, o ∈ accepted ops
  highest : s.persistentHighest.keys.toFinset = accepted ops

lemma tight_accept {w : OriginWindow} (h : Tight W w) : Tight W (w.accept q W) := by
  intro q' hq'
  obtain ⟨hmem, hfloor⟩ := Finset.mem_filter.mp hq'
  refine ⟨?_, hfloor⟩
  rw [accept_highest]
  rcases Finset.mem_insert.mp hmem with rfl | hold
  · exact le_max_right ..
  · exact UInt64.le_trans (h q' hold).1 (le_max_left ..)

lemma card_of_tight {w : OriginWindow} (h : Tight W w) : w.accepted.card ≤ W.toNat + 1 := by
  have hrange : w.accepted.image UInt64.toNat ⊆
      Finset.Icc (w.highest.toNat - W.toNat) w.highest.toNat := by
    intro n hn
    obtain ⟨q, hq, rfl⟩ := Finset.mem_image.mp hn
    obtain ⟨hle, hfloor⟩ := h q hq
    rw [UInt64.le_iff_toNat_le, saturatingSub_toNat] at hfloor
    exact Finset.mem_Icc.mpr ⟨hfloor, UInt64.le_iff_toNat_le.mp hle⟩
  have hcard := Finset.card_le_card hrange
  rw [Finset.card_image_of_injective _ fun _ _ => UInt64.toNat_inj.mp, Nat.card_Icc] at hcard
  omega

lemma mem_accepted_snoc :
    o ∈ accepted (ops ++ [op]) ↔ o ∈ accepted ops ∨ origin? (.op op) = some o := by
  unfold accepted acceptedOrigins
  rw [List.map_append, List.mem_toFinset, List.filterMap_append, List.mem_append,
    ← List.mem_toFinset]
  refine or_congr_right ?_
  rw [List.map_singleton, List.mem_filterMap]
  simp

lemma bounded_accept (h : Bounded records origins W ops s) (id : RecordId) :
    Bounded records origins W (ops ++ [.accept id o q now]) (s.accept id o q now) where
  recent := h.recent
  room := h.room
  window := h.window
  tight o' w hw := by
    by_cases heq : o' = o
    · subst heq
      obtain rfl := Option.some.inj ((LruCache.peek_put_self ..).symm.trans hw)
      rw [h.window]
      refine tight_accept ?_
      rcases hp : s.origins.peek o' with _ | w
      · exact fun q hq => absurd hq (Finset.notMem_empty q)
      · exact h.tight o' w hp
    · exact h.tight o' w (LruCache.peek_of_peek_put heq hw)
  windows o' ho' := by
    rw [mem_accepted_snoc]
    by_cases heq : o' = o
    · exact .inr (congrArg some heq.symm)
    · obtain ⟨w, hw⟩ := Option.isSome_iff_exists.mp (LruCache.mem_keys.mp ho')
      refine .inl (h.windows o' (LruCache.mem_keys.mpr ?_))
      rw [LruCache.peek_of_peek_put heq hw]
      rfl
  highest := by
    ext o'
    have hmem := Finset.ext_iff.mp h.highest o'
    rw [List.mem_toFinset, ← AList.mem_keys] at hmem ⊢
    rw [mem_accepted_snoc, ← hmem]
    exact (AList.mem_insert s.persistentHighest).trans
      (or_comm.trans (or_congr_right (eq_comm.trans (Option.some_inj.symm))))

lemma bounded_apply (h : Bounded records origins W ops s) :
    Bounded records origins W (ops ++ [op]) (apply s op) := by
  have hsame : origin? (.op op) = none → accepted (ops ++ [op]) = accepted ops := by
    intro hnone
    ext o
    rw [mem_accepted_snoc, hnone]
    simp
  cases op with
  | accept id o q now => exact bounded_accept h id
  | markPending id now =>
    exact ⟨h.recent, h.room, h.window, h.tight, (hsame rfl) ▸ h.windows, (hsame rfl) ▸ h.highest⟩
  | forget id =>
    exact ⟨h.recent, h.room, h.window, h.tight, (hsame rfl) ▸ h.windows, (hsame rfl) ▸ h.highest⟩
  | check id o q now =>
    obtain ⟨hhighest, -, hwindow, -, horigins, -⟩ := check_frame s id o q now
    obtain ⟨hrecent, hroom⟩ := check_caps s id o q now
    refine ⟨hrecent.trans h.recent, hroom.trans h.room, hwindow.trans h.window, ?_, ?_, ?_⟩
    · intro o' w hw
      exact h.tight o' w ((horigins o').symm.trans hw)
    · intro o' ho'
      rw [hsame rfl]
      refine h.windows o' (LruCache.mem_keys.mpr ?_)
      rw [← horigins]
      exact LruCache.mem_keys.mp ho'
    · rw [hsame rfl, ← h.highest]
      exact congrArg (fun m : AList fun _ : PeerId => UInt64 => m.keys.toFinset) hhighest

lemma bounded_run :
    Bounded records origins W ops (run apply (.withLimits records ttl origins W) ops) := by
  induction ops using List.reverseRecOn with
  | nil =>
    refine ⟨rfl, rfl, rfl, nofun, ?_, rfl⟩
    simp [ReplayState.withLimits, LruCache.keys, LruCache.new]
  | append_singleton ops op ih =>
    rw [run_append, run_cons, run_nil]
    exact bounded_apply ih

/-- In every run the ids seen recently and the windows stay within their capacities, a window of
width `W` holds at most `W + 1` numbers around its highest one, and what is kept beyond that is one
highest sequence for each origin that was accepted. -/
theorem tracking_bounded (records ttl origins : ℕ) (W : UInt64) (ops : List ReplayOp) :
    let s := run apply (.withLimits records ttl origins W) ops
    s.recentlySeen.len ≤ max records 1 ∧ s.origins.len ≤ max origins 1 ∧
      (∀ o w, s.origins.peek o = some w → Tight W w ∧ w.accepted.card ≤ W.toNat + 1) ∧
      retainedOrigins s = accepted ops := by
  intro s
  have h : Bounded records origins W ops s := bounded_run
  refine ⟨?_, ?_, fun o w hw => ⟨h.tight o w hw, card_of_tight (h.tight o w hw)⟩, ?_⟩
  · rw [← h.recent]
    exact s.recentlySeen.bounded
  · rw [← h.room]
    exact s.origins.bounded
  · unfold retainedOrigins
    rw [h.highest]
    refine Finset.union_eq_right.mpr fun o ho => ?_
    exact h.windows o (List.mem_toFinset.mp ho)

/-- With room for one origin, two origins that were accepted are both retained. -/
theorem retained_exceed : ¬ ∀ (records ttl origins : ℕ) (W : UInt64) (ops : List ReplayOp),
    (retainedOrigins (run apply (.withLimits records ttl origins W) ops)).card ≤ max origins 1 := by
  intro h
  have htwo : (retainedOrigins (run apply (.withLimits 4 10 1 10)
      [.accept (sampleId 1) ⟨[1]⟩ 1 5, .accept (sampleId 2) ⟨[2]⟩ 1 6])).card = 2 := by
    decide +kernel
  have hone := h 4 10 1 10 [.accept (sampleId 1) ⟨[1]⟩ 1 5, .accept (sampleId 2) ⟨[2]⟩ 1 6]
  rw [htwo] at hone
  exact absurd hone (by decide)

end Protonet.ReplayBounds
