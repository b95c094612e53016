import Protonet.Database
import Protonet.StepRun

/-!
# Local identities and their sequences

The identity lives in a file, its sequence counter in the store. A reset clears the counters first,
then deletes the file and creates a new one, and may stop after each step. Signing jobs run on
threads of their own and are not stopped by a reset.
-/
namespace Protonet.IdentityReset
open StepRun Record Database

def isSequence : MetadataKey → Bool
  | .sequence _ => true
  | .generation => false

/-- `next_local_sequence`; nothing changes on an error. -/
def nextLocalSequence (db : SignatureDatabase) (peer : PeerId) :
    Except String (UInt64 × SignatureDatabase) :=
  let current := (db.metadata.lookup (.sequence peer)).getD 0
  if current.toNat + 1 < 2 ^ 64 then
    .ok (current + 1, { db with metadata := db.metadata.insert (.sequence peer) (current + 1) })
  else .error "local sequence exhausted"

def clearIdentityState (db : SignatureDatabase) : SignatureDatabase :=
  { db with metadata :=
      ⟨db.metadata.entries.filter fun e => !isSequence e.1,
        db.metadata.nodupKeys.sublist List.filter_sublist⟩ }

/-- The number handed out last, as the store knows it. -/
def counter (db : SignatureDatabase) (peer : PeerId) : ℕ :=
  ((db.metadata.lookup (.sequence peer)).getD 0).toNat

/-- `load`, where reading or decrypting may fail. -/
def load (file : Option PeerId) (readable : Bool) : Option PeerId :=
  if readable then file else none

/-- `generate_and_store`: the identity and the file afterwards. `generated` is the new key, if it
can be written. -/
def generateAndStore (file : Option PeerId) (readable : Bool) (generated : Option PeerId) :
    Option PeerId × Option PeerId :=
  match file with
  | some peer => (load (some peer) readable, some peer)
  | none => (generated, generated)

def loadOrCreate (file : Option PeerId) (readable : Bool) (generated : Option PeerId) :
    Option PeerId × Option PeerId :=
  match file with
  | some peer => (load (some peer) readable, some peer)
  | none => generateAndStore none readable generated

/-- Where `run_engine` stands. -/
inductive Engine
  | stopped
  | running (identity : PeerId)
  | resetting
  | cleared
  | removed
  deriving DecidableEq

structure Node where
  db : SignatureDatabase
  file : Option PeerId
  engine : Engine
  /-- Signing jobs that have not asked for their sequence yet. -/
  jobs : List PeerId
  /-- The sequences handed to the identity in the file since it is there. -/
  handed : List UInt64
  /-- The counters were cleared after the first of these. -/
  stale : Bool

inductive Event
  | start (readable : Bool) (generated : Option PeerId)
  | sign
  /-- A job asks for its sequence; the transaction may fail. -/
  | sequence (peer : PeerId) (commits : Bool)
  | resetIdentity
  | clear (succeeds : Bool)
  | remove (succeeds : Bool)
  | create (readable : Bool) (generated : Option PeerId)
  /-- The engine returns, or the process ends and its jobs with it. -/
  | stop (killed : Bool)

def Node.start (db : SignatureDatabase) (file : Option PeerId) : Node :=
  ⟨db, file, .stopped, [], [], false⟩

def Node.adopt (s : Node) (outcome : Option PeerId × Option PeerId) : Node :=
  { s with
    file := outcome.2
    engine := match outcome.1 with
      | some peer => .running peer
      | none => .stopped
    handed := if outcome.2 = s.file then s.handed else []
    stale := if outcome.2 = s.file then s.stale else false }

def Node.assign (s : Node) (peer : PeerId) : Node :=
  match nextLocalSequence s.db peer with
  | .error _ => s
  | .ok (n, db) =>
    { s with db, handed := if s.file = some peer then s.handed ++ [n] else s.handed }

def Node.step (s : Node) : Event → Node
  | .start readable generated =>
    match s.engine with
    | .stopped => s.adopt (loadOrCreate s.file readable generated)
    | _ => s
  | .sign =>
    match s.engine with
    | .running peer => { s with jobs := s.jobs ++ [peer] }
    | _ => s
  | .sequence peer commits =>
    if peer ∈ s.jobs then
      let s := { s with jobs := s.jobs.erase peer }
      if commits then s.assign peer else s
    else s
  | .resetIdentity =>
    match s.engine with
    | .running _ => { s with engine := .resetting }
    | _ => s
  | .clear succeeds =>
    match s.engine with
    | .resetting =>
      if succeeds then
        { s with
          db := clearIdentityState s.db
          engine := .cleared
          stale := s.stale || !s.handed.isEmpty }
      else { s with engine := .stopped }
    | _ => s
  | .remove succeeds =>
    match s.engine with
    | .cleared =>
      if s.file.isNone then { s with engine := .removed }
      else if succeeds then
        { s with file := none, engine := .removed, handed := [], stale := false }
      else { s with engine := .stopped }
    | _ => s
  | .create readable generated =>
    match s.engine with
    | .removed => s.adopt (generateAndStore s.file readable generated)
    | _ => s
  | .stop killed =>
    { s with engine := .stopped, jobs := if killed then [] else s.jobs }

/-- The sequences of the identity in the file are distinct and increasing. -/
def Increasing (s : Node) : Prop := s.handed.Pairwise (· < ·)

instance (s : Node) : Decidable (Increasing s) := by
  unfold Increasing
  infer_instance

/-- The identity in the file gets no further sequence once its counter was cleared. -/
def Sound (s : Node) : Event → Prop
  | .sequence peer commits =>
    peer ∈ s.jobs → commits = true → s.file = some peer → s.stale = false
  | _ => True

variable {db db' : SignatureDatabase} {p q : PeerId} {s : Node}

lemma counter_congr (h : db'.metadata = db.metadata) (peer : PeerId) :
    counter db' peer = counter db peer := by
  unfold counter
  rw [h]

lemma counter_incrementGeneration (peer : PeerId) :
    counter db.incrementGeneration peer = counter db peer := by
  have hlookup : db.incrementGeneration.metadata.lookup (.sequence peer) =
      db.metadata.lookup (.sequence peer) := AList.lookup_insert_ne nofun
  unfold counter
  rw [hlookup]

lemma counter_clear : counter (clearIdentityState db) p = 0 := by
  have hnone : (clearIdentityState db).metadata.lookup (.sequence p) = none := by
    refine AList.lookup_eq_none.mpr fun hmem => ?_
    obtain ⟨e, he, hkey⟩ := List.mem_map.mp hmem
    have hkept := (List.mem_filter.mp he).2
    rw [hkey] at hkept
    exact absurd hkept Bool.false_ne_true
  rw [counter, hnone]
  rfl

lemma nextLocalSequence_ok {n : UInt64} (h : nextLocalSequence db p = .ok (n, db')) :
    n.toNat = counter db p + 1 ∧ counter db' p = counter db p + 1 ∧
      ∀ q ≠ p, counter db' q = counter db q := by
  unfold nextLocalSequence at h
  dsimp only at h
  split_ifs at h with hroom
  obtain ⟨rfl, rfl⟩ := Prod.mk.inj (Except.ok.inj h)
  have hsucc : ((db.metadata.lookup (.sequence p)).getD 0 + 1).toNat =
      ((db.metadata.lookup (.sequence p)).getD 0).toNat + 1 := by
    rw [UInt64.toNat_add]
    exact Nat.mod_eq_of_lt hroom
  refine ⟨hsucc, ?_, fun q hq => ?_⟩
  · rw [counter, AList.lookup_insert]
    exact hsucc
  · have hkey : MetadataKey.sequence q ≠ .sequence p := fun heq => hq (MetadataKey.sequence.inj heq)
    rw [counter, AList.lookup_insert_ne hkey]
    rfl

lemma nextLocalSequence_tables {n : UInt64} (h : nextLocalSequence db p = .ok (n, db')) :
    db'.records = db.records ∧ db'.ingestionDaily = db.ingestionDaily ∧
      db'.inMemory = db.inMemory := by
  unfold nextLocalSequence at h
  dsimp only at h
  split_ifs at h
  obtain ⟨-, rfl⟩ := Prod.mk.inj (Except.ok.inj h)
  exact ⟨rfl, rfl, rfl⟩

lemma nextLocalSequence_error {e : String} (h : nextLocalSequence db p = .error e) :
    ¬counter db p + 1 < 2 ^ 64 := by
  unfold nextLocalSequence at h
  dsimp only at h
  split_ifs at h with hroom
  exact hroom

lemma nextLocalSequence_fresh (h : counter db p = 0) :
    ∃ out, nextLocalSequence db p = .ok out := by
  unfold nextLocalSequence
  dsimp only
  rw [if_pos]
  · exact ⟨_, rfl⟩
  · rw [counter] at h
    omega

/-- The counter of the identity in the file has reached its sequences, or was cleared since. -/
structure Kept (s : Node) : Prop where
  increasing : Increasing s
  positive : ∀ n ∈ s.handed, 0 < n.toNat
  reached : s.stale = false → ∀ peer, s.file = some peer →
    ∀ n ∈ s.handed, n.toNat ≤ counter s.db peer
  cleared : s.stale = true → s.handed ≠ [] ∧ ∀ peer, s.file = some peer → counter s.db peer = 0

lemma kept_start (db : SignatureDatabase) (file : Option PeerId) : Kept (.start db file) :=
  ⟨List.Pairwise.nil, by simp [Node.start], by simp [Node.start], by simp [Node.start]⟩

lemma Kept.congr {t : Node} (h : Kept s) (hdb : t.db = s.db) (hfile : t.file = s.file)
    (hhanded : t.handed = s.handed) (hstale : t.stale = s.stale) : Kept t := by
  obtain ⟨hinc, hpos, hreached, hcleared⟩ := h
  refine ⟨?_, hhanded ▸ hpos, ?_, ?_⟩
  · rwa [Increasing, hhanded]
  · rwa [hstale, hfile, hhanded, hdb]
  · rwa [hstale, hfile, hhanded, hdb]

/-- An identity that comes to the file has been handed nothing. -/
lemma Kept.adopt (h : Kept s) (outcome : Option PeerId × Option PeerId) :
    Kept (s.adopt outcome) := by
  unfold Node.adopt
  by_cases hsame : outcome.2 = s.file
  · exact h.congr rfl hsame (if_pos hsame) (if_pos hsame)
  · rw [if_neg hsame, if_neg hsame]
    exact ⟨List.Pairwise.nil, by simp, by simp, by simp⟩

/-- A sequence keeps the order exactly when the counter was not cleared before. -/
lemma assign_increasing_iff (h : Kept s) (peer : PeerId) :
    Increasing (s.assign peer) ↔ (s.file = some peer → s.stale = false) := by
  unfold Node.assign
  rcases hnext : nextLocalSequence s.db peer with error | ⟨n, db⟩
  · refine iff_of_true h.increasing fun hfile => ?_
    by_contra hstale
    obtain ⟨-, hzero⟩ := h.cleared (by simpa using hstale)
    obtain ⟨out, hok⟩ := nextLocalSequence_fresh (hzero peer hfile)
    rw [hnext] at hok
    cases hok
  · obtain ⟨hn, -, -⟩ := nextLocalSequence_ok hnext
    dsimp only
    by_cases hfile : s.file = some peer
    · rw [if_pos hfile, Increasing, List.pairwise_append]
      simp only [hfile, forall_const, List.pairwise_singleton, true_and, List.mem_singleton,
        forall_eq]
      constructor
      · rintro ⟨-, hlt⟩
        by_contra hstale
        obtain ⟨hne, hzero⟩ := h.cleared (by simpa using hstale)
        obtain ⟨m, hm⟩ := List.exists_mem_of_ne_nil _ hne
        have hpos := h.positive m hm
        have hless := UInt64.lt_iff_toNat_lt.mp (hlt m hm)
        rw [hn, hzero peer hfile] at hless
        omega
      · intro hstale
        refine ⟨h.increasing, fun m hm => UInt64.lt_iff_toNat_lt.mpr ?_⟩
        have hle := h.reached hstale peer hfile m hm
        omega
    · rw [if_neg hfile]
      exact iff_of_true h.increasing fun hf => absurd hf hfile

lemma Kept.assign (h : Kept s) {peer : PeerId} (hsound : s.file = some peer → s.stale = false) :
    Kept (s.assign peer) := by
  have hinc := (assign_increasing_iff h peer).mpr hsound
  unfold Node.assign at hinc ⊢
  rcases hnext : nextLocalSequence s.db peer with error | ⟨n, db⟩
  · exact h
  · rw [hnext] at hinc
    obtain ⟨hn, hself, hothers⟩ := nextLocalSequence_ok hnext
    dsimp only at hinc ⊢
    by_cases hfile : s.file = some peer
    · rw [if_pos hfile] at hinc ⊢
      have hstale := hsound hfile
      refine ⟨hinc, ?_, fun _ q hq m hm => ?_, fun hs => ?_⟩
      · intro m hm
        rcases List.mem_append.mp hm with hold | hnew
        · exact h.positive m hold
        · rw [List.mem_singleton.mp hnew]
          omega
      · obtain rfl : q = peer := Option.some.inj (hq.symm.trans hfile)
        dsimp only
        rcases List.mem_append.mp hm with hold | hnew
        · have hle := h.reached hstale q hfile m hold
          omega
        · rw [List.mem_singleton.mp hnew]
          omega
      · exact absurd (hs.symm.trans hstale) (by simp)
    · rw [if_neg hfile] at hinc ⊢
      have hkeep : ∀ q, s.file = some q → counter db q = counter s.db q :=
        fun q hq => hothers q fun heq => hfile (heq ▸ hq)
      refine ⟨hinc, h.positive, fun hs q hq m hm => ?_, fun hs => ?_⟩
      · exact (h.reached hs q hq m hm).trans_eq (hkeep q hq).symm
      · obtain ⟨hne, hzero⟩ := h.cleared hs
        exact ⟨hne, fun q hq => (hkeep q hq).trans (hzero q hq)⟩

lemma Kept.clear (h : Kept s) (engine : Engine) :
    Kept { s with db := clearIdentityState s.db, engine, stale := s.stale || !s.handed.isEmpty } := by
  refine ⟨h.increasing, h.positive, fun hs peer hfile n hn => ?_, fun hs => ⟨?_, ?_⟩⟩
  · rw [Bool.or_eq_false_iff, Bool.not_eq_false', List.isEmpty_iff] at hs
    rw [hs.2] at hn
    cases hn
  · rw [Bool.or_eq_true] at hs
    rcases hs with hs | hs
    · exact (h.cleared hs).1
    · simpa using hs
  · exact fun peer _ => counter_clear

lemma kept_step (e : Event) (h : Kept s) (hsound : Sound s e) : Kept (s.step e) := by
  have hsame : ∀ engine jobs, Kept { s with engine, jobs } :=
    fun engine jobs => h.congr rfl rfl rfl rfl
  cases e with
  | start readable generated =>
    unfold Node.step
    dsimp only
    split
    · exact h.adopt _
    · exact h
  | sign =>
    unfold Node.step
    dsimp only
    split
    · exact hsame _ _
    · exact h
  | sequence peer commits =>
    unfold Node.step
    dsimp only
    split_ifs with hjob hcommits
    · exact (hsame _ _ : Kept { s with jobs := s.jobs.erase peer }).assign (hsound hjob hcommits)
    · exact hsame _ _
    · exact h
  | resetIdentity =>
    unfold Node.step
    dsimp only
    split
    · exact hsame _ _
    · exact h
  | clear succeeds =>
    unfold Node.step
    dsimp only
    split
    · split_ifs
      · exact h.clear _
      · exact hsame _ _
    · exact h
  | remove succeeds =>
    unfold Node.step
    dsimp only
    split
    · split_ifs
      · exact hsame _ _
      · exact ⟨List.Pairwise.nil, by simp, by simp, by simp⟩
      · exact hsame _ _
    · exact h
  | create readable generated =>
    unfold Node.step
    dsimp only
    split
    · exact h.adopt _
    · exact h
  | stop killed => exact hsame _ _

lemma step_sequence {peer : PeerId} (hjob : peer ∈ s.jobs) :
    s.step (.sequence peer true) = Node.assign { s with jobs := s.jobs.erase peer } peer := by
  unfold Node.step
  dsimp only
  rw [if_pos hjob, if_pos rfl]

lemma increasing_iff_sound (e : Event) (h : Kept s) : Increasing (s.step e) ↔ Sound s e := by
  refine ⟨fun hinc => ?_, fun hsound => (kept_step e h hsound).increasing⟩
  cases e with
  | sequence peer commits =>
    intro hjob hcommits
    rw [hcommits, step_sequence hjob] at hinc
    have hk : Kept { s with jobs := s.jobs.erase peer } := h.congr rfl rfl rfl rfl
    exact (assign_increasing_iff hk peer).mp hinc
  | _ => trivial

/-- In every run, from any store and any file, the sequences handed to an identity while it stays
in the file are distinct and increasing exactly when it gets none after its counter was cleared. -/
theorem sequences_increase_iff (db : SignatureDatabase) (file : Option PeerId) (es : List Event) :
    Along Node.step (fun s e => Increasing (s.step e)) (.start db file) es ↔
      Along Node.step Sound (.start db file) es :=
  along_iff_of_invariant (B := fun _ _ => True) (kept_start db file)
    (along_iff.mpr fun _ _ _ _ => trivial) (fun _ e h _ hs => kept_step e h hs)
    fun _ e h _ => increasing_iff_sound e h

/-- A reset whose deletion fails, and the two records signed around it. -/
def failedReset : List Event :=
  [.start true none, .sign, .sequence ⟨[1]⟩ true, .resetIdentity, .clear true, .remove false,
    .start true none, .sign, .sequence ⟨[1]⟩ true]

/-- The identity stays in the file and is handed sequence 1 a second time. -/
theorem failedReset_reuses :
    ¬ Along Node.step (fun s e => Increasing (s.step e)) (.start (.open false) (some ⟨[1]⟩))
      failedReset := by
  decide +kernel

end Protonet.IdentityReset
