import Protonet.HashText
import Protonet.RecordIdentity
import Protonet.StepRun

/-!
# Scanning a file

A thread reads the chosen file in chunks and hashes them as they come, while the user may cancel
it or choose another file. The result comes back through a channel of one place. A later frame
looks its hash up, and either raises an alert or asks the engine to publish it.

Drawing, the progress bar and the other lines of the log are left out.
-/
namespace Protonet.FileScan
open StepRun Postcard Record RecordIdentity Database Swarm HashText

def MAX_NETWORK_COMMANDS : ℕ := 1024

def BUFFER : ℕ := 65536

/-- A hash that takes its input in pieces: what counts is what they spell together. -/
structure Hasher (digest : Bytes → Hash32) where
  State : Type
  new : State
  update : State → Bytes → State
  finalize : State → Hash32
  streams : ∀ chunks : List Bytes, finalize (chunks.foldl update new) = digest chunks.flatten

/-- A path, with its last component where that is text. -/
structure Path where
  text : String
  fileName : Option Text

structure Hashed where
  sha256 : Hash32
  blake3 : Hash32
  fileName : Text
  fileSize : UInt64
  deriving DecidableEq

abbrev HashResult := Except String Hashed

def unknownFile : Text := ⟨"unknown_file", by decide⟩

variable {K : Primitives} {sha256 : Bytes → Hash32}

/-- The variables of the loop. -/
structure Hashing (B : Hasher K.blake3) (S : Hasher sha256) where
  fileName : Text
  fileSize : UInt64
  blake3 : B.State
  sha256 : S.State

variable {B : Hasher K.blake3} {S : Hasher sha256}

def Hashing.update (h : Hashing B S) (chunk : Bytes) : Hashing B S :=
  { h with blake3 := B.update h.blake3 chunk, sha256 := S.update h.sha256 chunk }

def Hashing.finalize (h : Hashing B S) : Hashed :=
  ⟨S.finalize h.sha256, B.finalize h.blake3, h.fileName, h.fileSize⟩

/-- How far `compute_file_hashes_with_progress` is. -/
inductive Stage (B : Hasher K.blake3) (S : Hasher sha256)
  | opening
  /-- At the head of the loop, before the flag is loaded. -/
  | asking (h : Hashing B S)
  | reading (h : Hashing B S)
  | sending (result : HashResult)
  | ended

/-- A thread with its flag and its channel. -/
structure Job (B : Hasher K.blake3) (S : Hasher sha256) where
  path : Path
  cancelled : Bool
  stage : Stage B S
  sent : Option HashResult

def Job.spawn (path : Path) : Job B S := ⟨path, false, .opening, none⟩

/-- What `File::open` and `metadata` answer. -/
inductive Opened
  | failed
  | unreadable (error : String)
  | size (fileSize : UInt64)

def Job.open (opened : Opened) (job : Job B S) : Job B S :=
  match job.stage with
  | .opening =>
    match opened with
    | .failed =>
      let error := "Failed to open file for signature check: " ++ job.path.text
      { job with stage := .sending (.error error) }
    | .unreadable error => { job with stage := .sending (.error error) }
    | .size fileSize =>
      let h : Hashing B S := ⟨job.path.fileName.getD unknownFile, fileSize, B.new, S.new⟩
      { job with stage := .asking h }
  | _ => job

def Job.ask (job : Job B S) : Job B S :=
  match job.stage with
  | .asking h =>
    if job.cancelled then { job with stage := .sending (.error "file hashing cancelled") }
    else { job with stage := .reading h }
  | _ => job

/-- A read fails or fills a part of the buffer; an empty one is the end of the file. -/
def Job.read (outcome : Option {chunk : Bytes // chunk.length ≤ BUFFER}) (job : Job B S) :
    Job B S :=
  match job.stage with
  | .reading h =>
    match outcome with
    | none => { job with stage := .sending (.error "Error reading file stream for BLAKE3 hashing") }
    | some chunk =>
      if chunk.1 = [] then { job with stage := .sending (.ok h.finalize) }
      else { job with stage := .asking (h.update chunk.1) }
  | _ => job

/-- What a read returns, the end of the file included. -/
def Job.got (outcome : Option {chunk : Bytes // chunk.length ≤ BUFFER}) (job : Job B S) :
    List Bytes :=
  match job.stage, outcome with
  | .reading _, some chunk => [chunk.1]
  | _, _ => []

/-- The result is lost when nobody holds the other end. -/
def Job.send (held : Bool) (job : Job B S) : Job B S :=
  match job.stage with
  | .sending result => { job with stage := .ended, sent := if held then some result else none }
  | _ => job

/-- Threads are named by the order in which they were started. -/
structure ScannerState where
  lastScannedFile : Option Path
  lastActionMsg : Option String
  isLastFlaggedByUs : Bool
  shareFileNames : Bool
  hashRx : Option ℕ
  cancel : Option ℕ

structure App (B : Hasher K.blake3) (S : Hasher sha256) where
  scanner : ScannerState
  activeThreatAlert : Option FileSignature
  logs : List String
  jobs : List (Job B S)
  /-- The channel to the engine, and whether the engine still runs. -/
  commands : List Command
  engineRuns : Bool

def App.start : App B S := ⟨⟨none, none, false, false, none, none⟩, none, [], [], [], true⟩

/-- What a frame reads from outside, and what the user does in it. -/
structure Frame where
  db : SignatureDatabase
  display : Display
  peerCount : ℕ
  dismiss : Bool
  share : Option Bool
  cancel : Bool
  choose : Option Path

def App.cancelHash (a : App B S) : App B S :=
  { a with
    scanner := { a.scanner with hashRx := none, cancel := none }
    jobs :=
      match a.scanner.cancel with
      | none => a.jobs
      | some i => a.jobs.modify i fun job => { job with cancelled := true } }

def App.startHash (a : App B S) (path : Path) : App B S :=
  let a := a.cancelHash
  { a with
    scanner := { a.scanner with
      lastScannedFile := some path
      lastActionMsg := some "hashing file"
      hashRx := some a.jobs.length
      cancel := some a.jobs.length }
    jobs := a.jobs ++ [.spawn path] }

/-- A message of the scanner, its line in the log and whose tag it is. -/
def App.report (a : App B S) (msg line : String) (ours : Bool) : App B S :=
  { a with
    scanner := { a.scanner with lastActionMsg := some msg, isLastFlaggedByUs := ours }
    logs := a.logs ++ [line] }

/-- `try_send`, with the text of its error. -/
def App.trySend (a : App B S) (command : Command) : Except String (App B S) :=
  if !a.engineRuns then .error "channel closed"
  else if a.commands.length < MAX_NETWORK_COMMANDS then
    .ok { a with commands := a.commands ++ [command] }
  else .error "no available capacity"

def App.publish (a : App B S) (f : Frame) (h : Hashed) : Bool × App B S :=
  let fileName := if a.scanner.shareFileNames then some h.fileName else none
  match a.trySend (.publishFile h.sha256 h.blake3 h.fileSize fileName) with
  | .ok a =>
    let msg := "tagged '" ++ h.fileName.1 ++ "' as FLAGGED! blake3 signature broadcasted to " ++
      toString f.peerCount ++ " peers."
    (true, a.report msg ("p2p  :: " ++ msg) true)
  | .error error =>
    let msg := "failed to queue signed record: " ++ error
    (false, a.report msg ("sys  :: " ++ msg) false)

/-- The lookup of a printed hash never panics. -/
def App.processHashResult (K : Primitives) {B : Hasher K.blake3} (a : App B S) (f : Frame)
    (result : HashResult) : Bool × App B S :=
  match result with
  | .error error =>
    let msg := "error hashing file: " ++ error
    (false, a.report msg ("sys  :: " ++ msg) false)
  | .ok h =>
    let a := { a with logs := a.logs ++ ["scan :: checking file '" ++ h.fileName.1 ++ "'",
      "hash :: blake3=" ++ hex h.blake3.1] }
    match isFlagged K f.display f.db (hex h.blake3.1) with
    | .ok (some existing) =>
      (false, { a with activeThreatAlert := some existing }.report
        ("file '" ++ h.fileName.1 ++ "' matched FLAGGED threat signature from peer " ++
          existing.flaggedByPeer ++ "!")
        ("alert:: flagged match detected! by " ++ existing.flaggedByPeer) false)
    | _ => a.publish f h

/-- `try_recv` on the held channel. -/
def App.received (a : App B S) : Option (ℕ × HashResult) :=
  match a.scanner.hashRx with
  | none => none
  | some i =>
    match a.jobs[i]? with
    | none => none
    | some job => job.sent.map fun result => (i, result)

def App.pollHash (K : Primitives) {B : Hasher K.blake3} (a : App B S) (f : Frame) :
    Bool × App B S :=
  match a.received with
  | none => (false, a)
  | some (_, result) =>
    { a with scanner := { a.scanner with hashRx := none, cancel := none } }.processHashResult K f
      result

/-- The controls of the scanner's tab, in their order. -/
def App.controls (a : App B S) (f : Frame) : App B S :=
  let a := { a with scanner := { a.scanner with
    shareFileNames := f.share.getD a.scanner.shareFileNames } }
  let a := if a.scanner.hashRx.isSome && f.cancel then a.cancelHash else a
  match f.choose with
  | none => a
  | some path => a.startHash path

/-- One frame of the window; an alert takes it over. -/
def App.update (K : Primitives) {B : Hasher K.blake3} (a : App B S) (f : Frame) : App B S :=
  let a := (a.pollHash K f).2
  if a.activeThreatAlert.isSome then
    if f.dismiss then { a with activeThreatAlert := none } else a
  else a.controls f

inductive Move
  | frame (f : Frame)
  | open (i : ℕ) (opened : Opened)
  | ask (i : ℕ)
  | read (i : ℕ) (outcome : Option {chunk : Bytes // chunk.length ≤ BUFFER})
  | send (i : ℕ)
  /-- The engine takes a command. -/
  | take
  /-- The engine ends. -/
  | stop

def App.modifyJob (a : App B S) (i : ℕ) (f : Job B S → Job B S) : App B S :=
  { a with jobs := a.jobs.modify i f }

def App.step (K : Primitives) {B : Hasher K.blake3} (a : App B S) : Move → App B S
  | .frame f => a.update K f
  | .open i opened => a.modifyJob i (Job.open opened)
  | .ask i => a.modifyJob i Job.ask
  | .read i outcome => a.modifyJob i (Job.read outcome)
  | .send i => a.modifyJob i (Job.send (decide (a.scanner.hashRx = some i)))
  | .take => { a with commands := a.commands.drop 1 }
  | .stop => { a with engineRuns := false }

def taken (a : App B S) : Move → List (ℕ × HashResult)
  | .frame _ => a.received.toList
  | _ => []

def got (i : ℕ) (a : App B S) : Move → List Bytes
  | .read j outcome =>
    if i = j then
      match a.jobs[i]? with
      | none => []
      | some job => job.got outcome
    else []
  | _ => []

def queued (K : Primitives) {B : Hasher K.blake3} (a : App B S) (m : Move) : List Command :=
  (a.step K m).commands.drop a.commands.length

/-- The digests are those of all chunks together. -/
def Digests (K : Primitives) (sha256 : Bytes → Hash32) (h : Hashed) (chunks : List Bytes) : Prop :=
  h.blake3 = K.blake3 chunks.flatten ∧ h.sha256 = sha256 chunks.flatten

def Hashing.Of (h : Hashing B S) (chunks : List Bytes) : Prop :=
  h.blake3 = chunks.foldl B.update B.new ∧ h.sha256 = chunks.foldl S.update S.new

/-- A thread has hashed what it has read. -/
structure Job.Follows (job : Job B S) (chunks : List Bytes) : Prop where
  opening : job.stage = .opening → chunks = []
  hashing : ∀ h, job.stage = .asking h ∨ job.stage = .reading h → h.Of chunks
  sending : ∀ h, job.stage = .sending (.ok h) → Digests K sha256 h chunks
  sent : ∀ r ∈ job.sent, job.stage = .ended ∧ ∀ h, r = .ok h → Digests K sha256 h chunks

variable {job : Job B S} {chunks : List Bytes}
  {outcome : Option {chunk : Bytes // chunk.length ≤ BUFFER}}

lemma Hashing.Of.finalize {h : Hashing B S} (hof : h.Of chunks) :
    Digests K sha256 h.finalize chunks := by
  obtain ⟨hblake3, hsha256⟩ := hof
  constructor
  · rw [← B.streams, ← hblake3]
    rfl
  · rw [← S.streams, ← hsha256]
    rfl

lemma Hashing.Of.update {h : Hashing B S} (hof : h.Of chunks) (chunk : Bytes) :
    (h.update chunk).Of (chunks ++ [chunk]) := by
  obtain ⟨hblake3, hsha256⟩ := hof
  constructor
  · rw [List.foldl_append, ← hblake3]
    rfl
  · rw [List.foldl_append, ← hsha256]
    rfl

lemma follows_spawn (path : Path) : (Job.spawn path : Job B S).Follows [] where
  opening _ := rfl
  hashing h hstage := by rcases hstage with hstage | hstage <;> cases hstage
  sending h hstage := by cases hstage
  sent r hr := by cases hr

/-- The threads that have sent something have ended. -/
lemma Job.Follows.unsent (h : job.Follows chunks) (hstage : job.stage ≠ .ended) :
    job.sent = none := by
  rcases hsent : job.sent with _ | r
  · rfl
  · exact absurd (h.sent r hsent).1 hstage

lemma Job.Follows.open (h : job.Follows chunks) (opened : Opened) :
    (job.open opened).Follows chunks := by
  unfold Job.open
  rcases hstage : job.stage with _ | h' | h' | r | _
  case opening =>
    have hsent := h.unsent (by simp [hstage])
    have hchunks := h.opening hstage
    cases opened with
    | size fileSize =>
      refine ⟨nofun, fun h' hh => ?_, nofun, by simp [hsent]⟩
      rcases hh with hh | hh
      · cases hh
        rw [hchunks]
        exact ⟨rfl, rfl⟩
      · cases hh
    | _ => exact ⟨nofun, by simp, by simp, by simp [hsent]⟩
  all_goals exact h

lemma Job.Follows.ask (h : job.Follows chunks) : job.ask.Follows chunks := by
  unfold Job.ask
  rcases hstage : job.stage with _ | h' | h' | r | _
  case asking =>
    have hsent := h.unsent (by simp [hstage])
    have hof := h.hashing h' (.inl hstage)
    dsimp only
    split_ifs
    · exact ⟨nofun, by simp, by simp, by simp [hsent]⟩
    · refine ⟨nofun, fun k hk => ?_, nofun, by simp [hsent]⟩
      rcases hk with hk | hk
      · cases hk
      · cases hk
        exact hof
  all_goals exact h

lemma Job.Follows.read (h : job.Follows chunks) :
    (job.read outcome).Follows (chunks ++ job.got outcome) := by
  unfold Job.read Job.got
  rcases hstage : job.stage with _ | h' | h' | r | _
  case reading =>
    have hsent := h.unsent (by simp [hstage])
    have hof := h.hashing h' (.inr hstage)
    rcases outcome with _ | chunk
    · exact ⟨nofun, by simp, by simp, by simp [hsent]⟩
    · dsimp only
      split_ifs with hend
      · -- the end of the file adds nothing to what is hashed
        refine ⟨nofun, by simp, fun k hk => ?_, by simp [hsent]⟩
        cases hk
        have hflatten : (chunks ++ [chunk.1]).flatten = chunks.flatten := by simp [hend]
        unfold Digests
        rw [hflatten]
        exact hof.finalize
      · refine ⟨nofun, fun k hk => ?_, nofun, by simp [hsent]⟩
        rcases hk with hk | hk
        · cases hk
          exact hof.update chunk.1
        · cases hk
  all_goals
    rw [List.append_nil]
    exact h

lemma Job.Follows.send (h : job.Follows chunks) (held : Bool) :
    (job.send held).Follows chunks := by
  unfold Job.send
  rcases hstage : job.stage with _ | h' | h' | r | _
  case sending =>
    refine ⟨nofun, by simp, nofun, fun r' hr => ⟨rfl, fun k hk => ?_⟩⟩
    dsimp only at hr
    split_ifs at hr
    · cases hr
      exact h.sending k (hk ▸ hstage)
    · cases hr
  all_goals exact h

structure Job.Keeps (job job' : Job B S) : Prop where
  path : job'.path = job.path
  cancelled : job'.cancelled = job.cancelled
  ended : job.stage = .ended → job'.stage = .ended

lemma Job.keeps_open (job : Job B S) (opened : Opened) : job.Keeps (job.open opened) := by
  unfold Job.open
  rcases hstage : job.stage with _ | h | h | r | _
  case opening => cases opened <;> exact ⟨rfl, rfl, fun h => absurd (hstage.symm.trans h) nofun⟩
  all_goals exact ⟨rfl, rfl, id⟩

lemma Job.keeps_ask (job : Job B S) : job.Keeps job.ask := by
  unfold Job.ask
  rcases hstage : job.stage with _ | h | h | r | _
  case asking =>
    dsimp only
    split_ifs <;> exact ⟨rfl, rfl, fun h => absurd (hstage.symm.trans h) nofun⟩
  all_goals exact ⟨rfl, rfl, id⟩

lemma Job.keeps_read (job : Job B S)
    (outcome : Option {chunk : Bytes // chunk.length ≤ BUFFER}) : job.Keeps (job.read outcome) := by
  unfold Job.read
  rcases hstage : job.stage with _ | h | h | r | _
  case reading =>
    rcases outcome with _ | chunk
    · exact ⟨rfl, rfl, fun h => absurd (hstage.symm.trans h) nofun⟩
    · dsimp only
      split_ifs <;> exact ⟨rfl, rfl, fun h => absurd (hstage.symm.trans h) nofun⟩
  all_goals exact ⟨rfl, rfl, id⟩

lemma Job.keeps_send (job : Job B S) (held : Bool) : job.Keeps (job.send held) := by
  unfold Job.send
  rcases hstage : job.stage with _ | h | h | r | _
  case sending => exact ⟨rfl, rfl, fun _ => rfl⟩
  all_goals exact ⟨rfl, rfl, id⟩

/-- A thread that ends leaves its result in the channel, if somebody holds the other end. -/
lemma Job.sent_send {held : Bool} (hheld : held = true) (job : Job B S)
    (h : job.stage = .ended → job.sent.isSome) (hended : (job.send held).stage = .ended) :
    (job.send held).sent.isSome := by
  unfold Job.send at hended ⊢
  rcases hstage : job.stage with _ | h' | h' | r | _
  case sending => simp [hheld]
  case ended => exact h hstage
  all_goals simp [hstage] at hended

lemma Job.sent_open (job : Job B S) (opened : Opened) (h : job.stage = .ended → job.sent.isSome)
    (hended : (job.open opened).stage = .ended) : (job.open opened).sent.isSome := by
  unfold Job.open at hended ⊢
  rcases hstage : job.stage with _ | h' | h' | r | _
  case opening =>
    rw [hstage] at hended
    cases opened <;> cases hended
  case ended => exact h hstage
  all_goals simp [hstage] at hended

lemma Job.sent_ask (job : Job B S) (h : job.stage = .ended → job.sent.isSome)
    (hended : job.ask.stage = .ended) : job.ask.sent.isSome := by
  unfold Job.ask at hended ⊢
  rcases hstage : job.stage with _ | h' | h' | r | _
  case asking =>
    rw [hstage] at hended
    dsimp only at hended
    split_ifs at hended
  case ended => exact h hstage
  all_goals simp [hstage] at hended

lemma Job.sent_read (job : Job B S) (outcome : Option {chunk : Bytes // chunk.length ≤ BUFFER})
    (h : job.stage = .ended → job.sent.isSome) (hended : (job.read outcome).stage = .ended) :
    (job.read outcome).sent.isSome := by
  unfold Job.read at hended ⊢
  rcases hstage : job.stage with _ | h' | h' | r | _
  case reading =>
    rw [hstage] at hended
    rcases outcome with _ | chunk
    · cases hended
    · dsimp only at hended
      split_ifs at hended
  case ended => exact h hstage
  all_goals simp [hstage] at hended

def Answered (a : App B S) (chunks : ℕ → List Bytes) (i : ℕ) (r : HashResult) : Prop :=
  ∃ job, a.jobs[i]? = some job ∧ job.stage = .ended ∧ ∀ h, r = .ok h → Digests K sha256 h (chunks i)

/-- The interface listens to the thread it has started last, or to none. -/
structure Coherent (a : App B S) (chunks : ℕ → List Bytes) (results : List (ℕ × HashResult)) :
    Prop where
  follows : ∀ (i : ℕ) (job : Job B S), a.jobs[i]? = some job → job.Follows (chunks i)
  fresh : ∀ i, a.jobs.length ≤ i → chunks i = []
  cancel : a.scanner.cancel = a.scanner.hashRx
  held : ∀ i, a.scanner.hashRx = some i → i + 1 = a.jobs.length ∧ ∃ job, a.jobs[i]? = some job ∧
    job.cancelled = false ∧ a.scanner.lastScannedFile = some job.path
  answered : ∀ i r, (i, r) ∈ results → Answered a chunks i r
  past : ∀ i ∈ results.map Prod.fst, ∀ j, a.scanner.hashRx = some j → i < j
  /-- A thread that is neither answered nor cancelled is listened to, and its result reaches the
  interface. -/
  awaited : ∀ (i : ℕ) (job : Job B S), a.jobs[i]? = some job → job.cancelled = false →
    (a.scanner.hashRx = some i ∧ (job.stage = .ended → job.sent.isSome)) ∨ i ∈ results.map Prod.fst
  ordered : (results.map Prod.fst).Pairwise (· < ·)

variable {a b : App B S} {m : Move} {results : List (ℕ × HashResult)} {chunks : ℕ → List Bytes}
  {f : Frame} {i : ℕ} {r : HashResult}

lemma getElem?_modified {α : Type*} (l : List α) (i j : ℕ) (g : α → α) :
    (l.modify i g)[j]? = if i = j then l[j]?.map g else l[j]? := by
  rw [List.getElem?_modify]
  split_ifs <;> simp

lemma coherent_start : Coherent (.start : App B S) (fun _ => []) [] where
  follows i job h := by simp [App.start] at h
  fresh _ _ := rfl
  cancel := rfl
  held i h := by simp [App.start] at h
  answered i r h := by cases h
  past i h := by simp at h
  awaited i job h := by simp [App.start] at h
  ordered := .nil

lemma Coherent.congr (h : Coherent a chunks results) (hjobs : b.jobs = a.jobs)
    (hrx : b.scanner.hashRx = a.scanner.hashRx) (hcancel : b.scanner.cancel = a.scanner.cancel)
    (hfile : b.scanner.lastScannedFile = a.scanner.lastScannedFile) :
    Coherent b chunks results where
  follows := by rw [hjobs]; exact h.follows
  fresh := by rw [hjobs]; exact h.fresh
  cancel := by rw [hcancel, hrx]; exact h.cancel
  held := by rw [hrx, hjobs, hfile]; exact h.held
  answered i r hr := by
    unfold Answered
    rw [hjobs]
    exact h.answered i r hr
  past := by rw [hrx]; exact h.past
  awaited := by rw [hrx, hjobs]; exact h.awaited
  ordered := h.ordered

lemma Coherent.received (h : Coherent a chunks results) (hr : a.received = some (i, r)) :
    a.scanner.hashRx = some i ∧ ∃ job, a.jobs[i]? = some job ∧ job.sent = some r := by
  unfold App.received at hr
  rcases hrx : a.scanner.hashRx with _ | j
  · rw [hrx] at hr
    cases hr
  · obtain ⟨-, job, hjob, -⟩ := h.held j hrx
    rw [hrx] at hr
    dsimp only at hr
    rw [hjob] at hr
    obtain ⟨result, hresult, heq⟩ := Option.map_eq_some_iff.mp hr
    obtain ⟨rfl, rfl⟩ := Prod.mk.inj heq
    exact ⟨rfl, job, hjob, hresult⟩

lemma Coherent.taking (h : Coherent a chunks results) (hr : a.received = some (i, r)) :
    Coherent { a with scanner := { a.scanner with hashRx := none, cancel := none } } chunks
      (results ++ [(i, r)]) := by
  obtain ⟨hrx, job, hjob, hsent⟩ := h.received hr
  have hpast := fun j hj => h.past j hj i hrx
  refine ⟨h.follows, h.fresh, rfl, nofun, fun j r' hj => ?_, fun _ _ => nofun,
    fun j job' hj hflag => .inr ?_, ?_⟩
  · rcases List.mem_append.mp hj with hj | hj
    · exact h.answered j r' hj
    · obtain ⟨rfl, rfl⟩ := Prod.mk.inj (List.mem_singleton.mp hj)
      exact ⟨job, hjob, (h.follows j job hjob).sent r' hsent⟩
  · rw [List.map_append, List.mem_append]
    rcases h.awaited j job' hj hflag with ⟨hheld, -⟩ | hdone
    · obtain rfl := Option.some.inj (hheld.symm.trans hrx)
      exact .inr (List.mem_singleton_self _)
    · exact .inl hdone
  · rw [List.map_append, List.pairwise_append]
    refine ⟨h.ordered, List.pairwise_singleton _ _, fun j hj k hk => ?_⟩
    rw [List.mem_singleton.mp hk]
    exact hpast j hj

lemma Coherent.modify (h : Coherent a chunks results) (i : ℕ) {step : Job B S → Job B S}
    (new : Job B S → List Bytes) (hkeeps : ∀ job, Job.Keeps job (step job))
    (hfollows : ∀ job chunks, Job.Follows job chunks → (step job).Follows (chunks ++ new job))
    (hended : ∀ job, job.stage = .ended → new job = [])
    (hsent : ∀ job, a.scanner.hashRx = some i → (job.stage = .ended → job.sent.isSome) →
      (step job).stage = .ended → (step job).sent.isSome) :
    Coherent (a.modifyJob i step)
      (fun j => chunks j ++ if j = i then (a.jobs[j]?.map new).getD [] else []) results := by
  have hget (j : ℕ) : (a.modifyJob i step).jobs[j]? =
      if i = j then a.jobs[j]?.map step else a.jobs[j]? := getElem?_modified ..
  have hlength : (a.modifyJob i step).jobs.length = a.jobs.length := List.length_modify ..
  refine ⟨fun j job hjob => ?_, fun j hj => ?_, h.cancel, fun j hj => ?_, fun j r hr => ?_, h.past,
    fun j job hjob hflag => ?_, h.ordered⟩
  · rw [hget] at hjob
    split_ifs at hjob with hij
    · obtain ⟨old, hold, rfl⟩ := Option.map_eq_some_iff.mp hjob
      rw [if_pos hij.symm, hold]
      exact hfollows old _ (h.follows j old hold)
    · rw [if_neg (Ne.symm hij), List.append_nil]
      exact h.follows j job hjob
  · rw [hlength] at hj
    rw [h.fresh j hj, List.getElem?_eq_none hj]
    simp
  · obtain ⟨hlast, job, hjob, hflag, hfile⟩ := h.held j hj
    refine ⟨hlast.trans hlength.symm, ?_⟩
    rw [hget, hjob]
    split_ifs
    · exact ⟨step job, rfl, (hkeeps job).cancelled.trans hflag, (hkeeps job).path.symm ▸ hfile⟩
    · exact ⟨job, rfl, hflag, hfile⟩
  · obtain ⟨job, hjob, hstage, hdigests⟩ := h.answered j r hr
    have hnone := hended job hstage
    have hnothing : (if j = i then (a.jobs[j]?.map new).getD [] else []) = [] := by
      rw [hjob]
      split_ifs
      · exact hnone
      · rfl
    unfold Answered
    beta_reduce
    rw [hnothing, List.append_nil, hget, hjob]
    split_ifs
    · exact ⟨step job, rfl, (hkeeps job).ended hstage, hdigests⟩
    · exact ⟨job, rfl, hstage, hdigests⟩
  · rw [hget] at hjob
    split_ifs at hjob with hij
    · subst hij
      obtain ⟨old, hold, rfl⟩ := Option.map_eq_some_iff.mp hjob
      exact (h.awaited i old hold ((hkeeps old).cancelled.symm.trans hflag)).imp_left
        fun ⟨hheld, hreaches⟩ => ⟨hheld, hsent old hheld hreaches⟩
    · exact h.awaited j job hjob hflag

lemma Coherent.cancelHash (h : Coherent a chunks results) :
    Coherent a.cancelHash chunks results := by
  rcases hcancel : a.scanner.cancel with _ | i
  · have hjobs : a.cancelHash.jobs = a.jobs := by
      unfold App.cancelHash
      rw [hcancel]
    refine ⟨?_, ?_, rfl, nofun, fun i r hr => ?_, fun _ _ => nofun,
      fun i job hjob hflag => .inr ?_, h.ordered⟩
    · rw [hjobs]
      exact h.follows
    · rw [hjobs]
      exact h.fresh
    · unfold Answered
      rw [hjobs]
      exact h.answered i r hr
    · rw [hjobs] at hjob
      refine (h.awaited i job hjob hflag).resolve_left fun hheld => ?_
      rw [← h.cancel, hcancel] at hheld
      cases hheld.1
  · have hget (j : ℕ) : a.cancelHash.jobs[j]? =
        if i = j then a.jobs[j]?.map fun job => { job with cancelled := true } else a.jobs[j]? := by
      unfold App.cancelHash
      rw [hcancel]
      exact getElem?_modified ..
    have hlength : a.cancelHash.jobs.length = a.jobs.length := by
      unfold App.cancelHash
      rw [hcancel]
      exact List.length_modify ..
    refine ⟨fun j job hjob => ?_, by rw [hlength]; exact h.fresh, rfl, nofun, fun j r hr => ?_,
      fun _ _ => nofun, fun j job hjob hflag => .inr ?_, h.ordered⟩
    · rw [hget] at hjob
      split_ifs at hjob
      · obtain ⟨old, hold, rfl⟩ := Option.map_eq_some_iff.mp hjob
        have hfollows := h.follows j old hold
        exact ⟨hfollows.opening, hfollows.hashing, hfollows.sending, hfollows.sent⟩
      · exact h.follows j job hjob
    · obtain ⟨job, hjob, hstage, hdigests⟩ := h.answered j r hr
      unfold Answered
      rw [hget, hjob]
      split_ifs
      · exact ⟨_, rfl, hstage, hdigests⟩
      · exact ⟨job, rfl, hstage, hdigests⟩
    · rw [hget] at hjob
      split_ifs at hjob with hij
      · obtain ⟨old, -, rfl⟩ := Option.map_eq_some_iff.mp hjob
        cases hflag
      · refine (h.awaited j job hjob hflag).resolve_left fun hheld => hij ?_
        rw [← h.cancel, hcancel] at hheld
        exact Option.some.inj hheld.1

lemma Coherent.startHash (h : Coherent a chunks results) (path : Path) :
    Coherent (a.startHash path) chunks results := by
  have hlet := h.cancelHash
  have hget (j : ℕ) : (a.startHash path).jobs[j]? =
      if j = a.cancelHash.jobs.length then some (.spawn path) else a.cancelHash.jobs[j]? := by
    change (a.cancelHash.jobs ++ [_])[j]? = _
    rw [List.getElem?_append]
    split_ifs with hlt heq heq
    · omega
    · rfl
    · rw [heq, Nat.sub_self]
      rfl
    · rw [List.getElem?_eq_none (by simp; omega), List.getElem?_eq_none (by omega)]
  have hlength : (a.startHash path).jobs.length = a.cancelHash.jobs.length + 1 := List.length_append
  refine ⟨fun j job hjob => ?_, fun j hj => ?_, rfl, fun j hj => ?_, fun j r hr => ?_,
    fun j hj k hk => ?_, fun j job hjob hflag => ?_, h.ordered⟩
  · rw [hget] at hjob
    split_ifs at hjob with hnew
    · cases hjob
      rw [hlet.fresh j hnew.ge]
      exact follows_spawn path
    · exact hlet.follows j job hjob
  · exact hlet.fresh j (by omega)
  · cases hj
    refine ⟨hlength.symm, .spawn path, ?_, rfl, rfl⟩
    rw [hget, if_pos rfl]
  · obtain ⟨job, hjob, hrest⟩ := hlet.answered j r hr
    have hlt := (List.getElem?_eq_some_iff.mp hjob).1
    refine ⟨job, ?_, hrest⟩
    rw [hget, if_neg hlt.ne, hjob]
  · cases hk
    obtain ⟨⟨j', r'⟩, hmem, rfl⟩ := List.mem_map.mp hj
    obtain ⟨job, hjob, -⟩ := hlet.answered j' r' hmem
    exact (List.getElem?_eq_some_iff.mp hjob).1
  · rw [hget] at hjob
    split_ifs at hjob with hnew
    · cases hjob
      exact .inl ⟨congrArg some hnew.symm, nofun⟩
    · exact .inr ((hlet.awaited j job hjob hflag).resolve_left fun hheld => nomatch hheld.1)

/-- What a report to the user leaves as it is. -/
structure Kept (a b : App B S) : Prop where
  jobs : b.jobs = a.jobs
  hashRx : b.scanner.hashRx = a.scanner.hashRx
  cancel : b.scanner.cancel = a.scanner.cancel
  lastScannedFile : b.scanner.lastScannedFile = a.scanner.lastScannedFile

lemma Coherent.kept (h : Coherent a chunks results) (hkept : Kept a b) :
    Coherent b chunks results :=
  h.congr hkept.jobs hkept.hashRx hkept.cancel hkept.lastScannedFile

/-- A result is an error, finds an entry of the store or asks for its publication. -/
inductive Outcome (K : Primitives) {B : Hasher K.blake3} {S : Hasher sha256} (a : App B S)
    (f : Frame) : HashResult → App B S → Prop
  | failed {error b} (hkept : Kept a b) (hcommands : b.commands = a.commands)
      (halert : b.activeThreatAlert = a.activeThreatAlert) : Outcome K a f (.error error) b
  | flagged {h existing b}
      (hflagged : isFlagged K f.display f.db (hex h.blake3.1) = .ok (some existing))
      (hkept : Kept a b) (hcommands : b.commands = a.commands)
      (halert : b.activeThreatAlert = some existing) : Outcome K a f (.ok h) b
  | published {h b} (hclean : ∀ s, isFlagged K f.display f.db (hex h.blake3.1) ≠ .ok (some s))
      (hkept : Kept a b) (hcommands : b.commands = a.commands ++
        if a.engineRuns ∧ a.commands.length < MAX_NETWORK_COMMANDS then
          [.publishFile h.sha256 h.blake3 h.fileSize
            (if a.scanner.shareFileNames then some h.fileName else none)]
        else [])
      (halert : b.activeThreatAlert = a.activeThreatAlert) : Outcome K a f (.ok h) b

lemma publish_kept (h : Hashed) : Kept a (a.publish f h).2 ∧
    (a.publish f h).2.commands = a.commands ++
      (if a.engineRuns ∧ a.commands.length < MAX_NETWORK_COMMANDS then
        [.publishFile h.sha256 h.blake3 h.fileSize
          (if a.scanner.shareFileNames then some h.fileName else none)]
      else []) ∧
    (a.publish f h).2.activeThreatAlert = a.activeThreatAlert := by
  unfold App.publish App.trySend
  dsimp only
  rcases hruns : a.engineRuns with _ | _
  · exact ⟨⟨rfl, rfl, rfl, rfl⟩, by simp [App.report], rfl⟩
  · by_cases hroom : a.commands.length < MAX_NETWORK_COMMANDS
    · simp only [hroom, Bool.not_true, Bool.false_eq_true, if_false, if_true, and_self]
      exact ⟨⟨rfl, rfl, rfl, rfl⟩, rfl, rfl⟩
    · simp only [hroom, Bool.not_true, Bool.false_eq_true, if_false, and_false]
      exact ⟨⟨rfl, rfl, rfl, rfl⟩, (List.append_nil _).symm, rfl⟩

lemma processHashResult_outcome (a : App B S) (f : Frame) (r : HashResult) :
    Outcome K a f r (a.processHashResult K f r).2 := by
  unfold App.processHashResult
  rcases r with error | h
  · exact .failed ⟨rfl, rfl, rfl, rfl⟩ rfl rfl
  · dsimp only
    split
    · exact .flagged ‹_› ⟨rfl, rfl, rfl, rfl⟩ rfl rfl
    · rename_i hclean
      obtain ⟨⟨hjobs, hrx, hcancel, hfile⟩, hcommands, halert⟩ :=
        @publish_kept K sha256 B S { a with logs := a.logs ++ ["scan :: checking file '" ++
          h.fileName.1 ++ "'", "hash :: blake3=" ++ hex h.blake3.1] } f h
      exact .published (fun s hs => hclean s hs) ⟨hjobs, hrx, hcancel, hfile⟩ hcommands halert

lemma Coherent.controls (h : Coherent a chunks results) (f : Frame) :
    Coherent (a.controls f) chunks results := by
  have hshared : Coherent { a with scanner := { a.scanner with
      shareFileNames := f.share.getD a.scanner.shareFileNames } } chunks results :=
    h.kept ⟨rfl, rfl, rfl, rfl⟩
  unfold App.controls
  dsimp only
  rcases f.choose with _ | path
  all_goals
    split_ifs
    · first
      | exact hshared.cancelHash
      | exact hshared.cancelHash.startHash path
    · first
      | exact hshared
      | exact hshared.startHash path

lemma Outcome.kept {b : App B S} (h : Outcome K a f r b) : Kept a b := by
  cases h <;> assumption

lemma Coherent.pollHash (h : Coherent a chunks results) (f : Frame) :
    Coherent (a.pollHash K f).2 chunks (results ++ a.received.toList) := by
  unfold App.pollHash
  rcases hr : a.received with _ | ⟨i, r⟩
  · simpa using h
  · exact (h.taking hr).kept (processHashResult_outcome _ f r).kept

lemma Coherent.update (h : Coherent a chunks results) (f : Frame) :
    Coherent (a.update K f) chunks (results ++ a.received.toList) := by
  have hpolled := h.pollHash f
  unfold App.update
  dsimp only
  split_ifs
  · exact hpolled.kept ⟨rfl, rfl, rfl, rfl⟩
  · exact hpolled
  · exact hpolled.controls f

lemma Coherent.unread {b : App B S} (h : Coherent b chunks (results ++ taken a m))
    (hgot : ∀ i, got i a m = []) :
    Coherent b (fun i => chunks i ++ got i a m) (results ++ taken a m) := by
  have hsame : (fun i => chunks i ++ got i a m) = chunks :=
    funext fun i => by rw [hgot, List.append_nil]
  rw [hsame]
  exact h

lemma Coherent.quiet (h : Coherent a chunks results) {step : Job B S → Job B S}
    (hkeeps : ∀ job, Job.Keeps job (step job))
    (hfollows : ∀ job chunks, Job.Follows job chunks → (step job).Follows chunks)
    (hsent : ∀ job, a.scanner.hashRx = some i → (job.stage = .ended → job.sent.isSome) →
      (step job).stage = .ended → (step job).sent.isSome) :
    Coherent (a.modifyJob i step) chunks results := by
  have hmodified := h.modify i (fun _ => []) hkeeps
    (fun job chunks hjob => by simpa using hfollows job chunks hjob) (fun _ _ => rfl) hsent
  have hsame : (fun j => chunks j ++ if j = i then (a.jobs[j]?.map fun _ => []).getD [] else []) =
      chunks := by
    funext j
    split_ifs
    · cases a.jobs[j]? <;> simp
    · exact List.append_nil _
  rw [hsame] at hmodified
  exact hmodified

lemma Coherent.read (h : Coherent a chunks results) (i : ℕ)
    (outcome : Option {chunk : Bytes // chunk.length ≤ BUFFER}) :
    Coherent (a.modifyJob i (Job.read outcome))
      (fun j => chunks j ++ got j a (.read i outcome)) results := by
  have hmodified := h.modify i (Job.got outcome)
    (fun job => job.keeps_read outcome) (fun job chunks hjob => hjob.read)
    (fun job hjob => by simp [Job.got, hjob]) fun job _ => job.sent_read outcome
  have hsame : (fun j => chunks j ++
      if j = i then (a.jobs[j]?.map (Job.got outcome)).getD [] else []) =
      fun j => chunks j ++ got j a (.read i outcome) := by
    funext j
    unfold got
    dsimp only
    split_ifs
    · cases a.jobs[j]? <;> rfl
    · rfl
  rw [hsame] at hmodified
  exact hmodified

lemma Coherent.step (h : Coherent a chunks results) (m : Move) :
    Coherent (a.step K m) (fun i => chunks i ++ got i a m) (results ++ taken a m) := by
  have hnone : Coherent a chunks (results ++ []) := by
    rw [List.append_nil]
    exact h
  cases m with
  | frame f => exact (h.update f).unread fun _ => rfl
  | «open» i opened =>
    exact (hnone.quiet (fun job => job.keeps_open opened)
      (fun job chunks hjob => hjob.open opened) fun job _ => job.sent_open opened).unread
        fun _ => rfl
  | ask i =>
    exact (hnone.quiet (fun job => job.keeps_ask) (fun job chunks hjob => hjob.ask)
      fun job _ => job.sent_ask).unread fun _ => rfl
  | read i outcome => exact hnone.read i outcome
  | send i =>
    exact (hnone.quiet (fun job => job.keeps_send _) (fun job chunks hjob => hjob.send _)
      fun job hheld => job.sent_send (decide_eq_true hheld)).unread fun _ => rfl
  | take =>
    have hkept : Coherent (a.step K .take) chunks (results ++ []) := hnone.kept ⟨rfl, rfl, rfl, rfl⟩
    exact hkept.unread fun _ => rfl
  | stop =>
    have hkept : Coherent (a.step K .stop) chunks (results ++ []) := hnone.kept ⟨rfl, rfl, rfl, rfl⟩
    exact hkept.unread fun _ => rfl

lemma Coherent.run (h : Coherent a chunks results) (moves : List Move) :
    Coherent (run (App.step K) a moves)
      (fun i => chunks i ++ collected (App.step K) (got i) a moves)
      (results ++ collected (App.step K) taken a moves) := by
  induction moves generalizing a chunks results with
  | nil => simpa [collected] using h
  | cons m moves ih =>
    have hstep := ih (h.step m)
    simp only [List.append_assoc] at hstep
    exact hstep

lemma update_commands (a : App B S) (f : Frame) :
    (a.update K f).commands = (a.pollHash K f).2.commands ∧
      (a.update K f).activeThreatAlert =
        if f.dismiss then none else (a.pollHash K f).2.activeThreatAlert := by
  have hcontrols (b : App B S) : (b.controls f).commands = b.commands ∧
      (b.controls f).activeThreatAlert = b.activeThreatAlert := by
    unfold App.controls
    dsimp only
    rcases f.choose with _ | path
    all_goals split_ifs <;> exact ⟨rfl, rfl⟩
  unfold App.update
  dsimp only
  split_ifs with halert hdismiss hdismiss
  · exact ⟨rfl, rfl⟩
  · exact ⟨rfl, rfl⟩
  · obtain ⟨hcommands, hsame⟩ := hcontrols (a.pollHash K f).2
    exact ⟨hcommands, hsame.trans (by simpa using halert)⟩
  · exact hcontrols _

/-- A frame takes a finished scan, which the store knows or not. -/
def Finds (K : Primitives) {B : Hasher K.blake3} (a : App B S) (m : Move) (h : Hashed)
    (known : Option FileSignature) : Prop :=
  ∃ f i, m = .frame f ∧ (i, .ok h) ∈ taken a m ∧
    isFlagged K f.display f.db (hex h.blake3.1) = .ok known

def Move.dismisses : Move → Bool
  | .frame f => f.dismiss
  | _ => false

/-- A result is that of the file chosen last, and was not cancelled. -/
def Chosen (a : App B S) (m : Move) : Prop :=
  ∀ i r, (i, r) ∈ taken a m → ∃ job, a.jobs.getLast? = some job ∧
    job.cancelled = false ∧ a.scanner.lastScannedFile = some job.path ∧ i + 1 = a.jobs.length

structure Scanned (K : Primitives) {B : Hasher K.blake3} (a : App B S) (m : Move) : Prop where
  chosen : Chosen a m
  /-- The lookup of a finished scan answers. -/
  answers : ∀ f i h, m = .frame f → (i, .ok h) ∈ taken a m → ∃ known, Finds K a m h known
  published : ∀ command, command ∈ queued K a m ↔ ∃ h, Finds K a m h none ∧
    a.engineRuns = true ∧ a.commands.length < MAX_NETWORK_COMMANDS ∧
    command = .publishFile h.sha256 h.blake3 h.fileSize
      (if a.scanner.shareFileNames then some h.fileName else none)
  alerted : ∀ s, (a.step K m).activeThreatAlert = some s ↔ m.dismisses = false ∧
    ((∃ h, Finds K a m h (some s)) ∨
      a.activeThreatAlert = some s ∧ ∀ h s', ¬ Finds K a m h (some s'))
  named : ∀ h s, Finds K a m h (some s) → ∃ f, m = .frame f ∧
    ∃ row ∈ f.db.records.rows, row.blake3 = h.blake3 ∧ ∃ record,
      FlaggedFileRecord.decode row.encodedRecord = .ok record ∧
        s = toFileSignature K f.display record

lemma queued_append {commands : List Command}
    (h : (a.step K m).commands = a.commands ++ commands) : queued K a m = commands := by
  unfold queued
  rw [h, List.drop_left]

lemma queued_same (h : (a.step K m).commands = a.commands) : queued K a m = [] :=
  queued_append (h.trans (List.append_nil _).symm)

lemma scanned_quiet (hchosen : Chosen a m) (hnone : ∀ i h, (i, .ok h) ∉ taken a m)
    (hqueued : queued K a m = [])
    (halert : (a.step K m).activeThreatAlert = if m.dismisses then none else a.activeThreatAlert) :
    Scanned K a m := by
  have hfinds : ∀ h known, ¬ Finds K a m h known := fun h known ⟨_, i, _, hmem, _⟩ => hnone i h hmem
  refine ⟨hchosen, fun f i h _ hmem => absurd hmem (hnone i h), fun command => ?_, fun s => ?_,
    fun h s hfound => absurd hfound (hfinds h _)⟩
  · rw [hqueued]
    exact iff_of_false List.not_mem_nil fun ⟨h, hfound, _⟩ => hfinds h _ hfound
  · rw [halert]
    rcases m.dismisses with _ | _ <;> simp [hfinds]

lemma Coherent.chosen (h : Coherent a chunks results) : Chosen a m := by
  intro i r hr
  have hreceived : a.received = some (i, r) := by
    cases m with
    | frame f => exact Option.mem_toList.mp hr
    | _ => cases hr
  obtain ⟨hlast, job, hjob, hflag, hfile⟩ := h.held i (h.received hreceived).1
  refine ⟨job, ?_, hflag, hfile, hlast⟩
  rw [List.getLast?_eq_getElem?, ← hlast, Nat.add_sub_cancel]
  exact hjob

/-- A lookup that finds something names a row with the very hash. -/
lemma flagged_row {b : Hash32} {D : Display} {db : SignatureDatabase} {s : FileSignature}
    (h : isFlagged K D db (hex b.1) = .ok (some s)) : ∃ row ∈ db.records.rows, row.blake3 = b ∧
      ∃ record, FlaggedFileRecord.decode row.encodedRecord = .ok record ∧
        s = toFileSignature K D record := by
  obtain ⟨b', hb, row, hrow, hhash, hrecord⟩ := isFlagged_row h
  rw [decodeHash_hex] at hb
  obtain rfl := Option.some.inj (Except.ok.inj hb)
  exact ⟨row, hrow, hhash, hrecord⟩

lemma isFlagged_hex {b : Hash32} {D : Display} {db : SignatureDatabase} :
    ∃ known, isFlagged K D db (hex b.1) = .ok known := by
  have hread : ∃ read, getByBlake3 K D db (hex b.1) = .ok read := by
    unfold getByBlake3
    rw [decodeHash_hex]
    dsimp only
    split
    · exact ⟨_, rfl⟩
    · split <;> exact ⟨_, rfl⟩
  obtain ⟨read, hread⟩ := hread
  unfold isFlagged
  rw [hread]
  cases read <;> exact ⟨_, rfl⟩

lemma scanned_taken (hchosen : Chosen a (.frame f)) {h : Hashed} {known : Option FileSignature}
    (htaken : taken a (.frame f) = [(i, .ok h)])
    (hknown : isFlagged K f.display f.db (hex h.blake3.1) = .ok known)
    (hqueued : queued K a (.frame f) =
      if known = none ∧ a.engineRuns ∧ a.commands.length < MAX_NETWORK_COMMANDS then
        [.publishFile h.sha256 h.blake3 h.fileSize
          (if a.scanner.shareFileNames then some h.fileName else none)]
      else [])
    (halert : (a.step K (.frame f)).activeThreatAlert =
      if f.dismiss then none else known.or a.activeThreatAlert) : Scanned K a (.frame f) := by
  have hfinds : ∀ h' known', Finds K a (.frame f) h' known' ↔ h' = h ∧ known' = known := by
    intro h' known'
    constructor
    · rintro ⟨_, j, ⟨⟩, hmem, hknown'⟩
      rw [htaken, List.mem_singleton, Prod.mk.injEq, Except.ok.injEq] at hmem
      obtain ⟨-, rfl⟩ := hmem
      exact ⟨rfl, Except.ok.inj (hknown'.symm.trans hknown)⟩
    · rintro ⟨rfl, rfl⟩
      exact ⟨f, i, rfl, by rw [htaken]; exact List.mem_singleton_self _, hknown⟩
  refine ⟨hchosen, ?_, fun command => ?_, fun s => ?_, ?_⟩
  · rintro _ j h' ⟨⟩ hmem
    rw [htaken, List.mem_singleton, Prod.mk.injEq, Except.ok.injEq] at hmem
    exact ⟨known, (hfinds _ _).mpr ⟨hmem.2, rfl⟩⟩
  · rw [hqueued]
    simp only [hfinds]
    by_cases hsends : known = none ∧ a.engineRuns ∧ a.commands.length < MAX_NETWORK_COMMANDS
    · rw [if_pos hsends]
      obtain ⟨rfl, hruns, hroom⟩ := hsends
      simp [hruns, hroom]
    · rw [if_neg hsends]
      refine iff_of_false List.not_mem_nil ?_
      rintro ⟨_, ⟨-, hclean⟩, hruns, hroom, -⟩
      exact hsends ⟨hclean.symm, hruns, hroom⟩
  · rw [halert]
    simp only [hfinds]
    unfold Move.dismisses
    dsimp only
    rcases f.dismiss with _ | _
    · rcases known with _ | existing <;> simp [eq_comm]
    · simp
  · rintro h' s hfound
    obtain ⟨f', j, hf, -, hknown'⟩ := hfound
    exact ⟨f', hf, flagged_row hknown'⟩

lemma Coherent.frame (h : Coherent a chunks results) (f : Frame) : Scanned K a (.frame f) := by
  obtain ⟨hcommands, halert⟩ := update_commands (K := K) a f
  rcases hr : a.received with _ | ⟨i, r⟩
  · have hpoll : a.pollHash K f = (false, a) := by rw [App.pollHash, hr]
    rw [hpoll] at hcommands halert
    exact scanned_quiet h.chosen (by simp [taken, hr]) (queued_same hcommands) halert
  · have htaken : taken a (.frame f) = [(i, r)] := by simp [taken, hr]
    have hpoll : a.pollHash K f = App.processHashResult K
        { a with scanner := { a.scanner with hashRx := none, cancel := none } } f r := by
      rw [App.pollHash, hr]
    have houtcome := processHashResult_outcome (K := K)
      { a with scanner := { a.scanner with hashRx := none, cancel := none } } f r
    rw [hpoll] at hcommands halert
    generalize App.processHashResult K _ f r = out at houtcome hcommands halert
    obtain ⟨published, b⟩ := out
    have hstep : (a.step K (.frame f)).commands = b.commands := hcommands
    cases houtcome with
    | failed hkept hsame hold =>
      refine scanned_quiet h.chosen (by simp [htaken]) (queued_same (hstep.trans hsame)) ?_
      exact halert.trans (by rw [hold]; rfl)
    | flagged hflagged hkept hsame hnew =>
      refine scanned_taken h.chosen htaken hflagged ?_ (halert.trans (by rw [hnew]; rfl))
      exact (queued_same (hstep.trans hsame)).trans (by simp)
    | @published h' _ hclean hkept hsent hold =>
      obtain ⟨known, hknown⟩ := @isFlagged_hex K h'.blake3 f.display f.db
      obtain rfl : known = none := by
        rcases known with _ | s
        · rfl
        · exact absurd hknown (hclean s)
      refine scanned_taken h.chosen htaken hknown ?_ (halert.trans (by rw [hold]; rfl))
      refine (queued_append (hstep.trans hsent)).trans ?_
      simp

lemma Coherent.scanned (h : Coherent a chunks results) (m : Move) : Scanned K a m := by
  cases m with
  | frame f => exact h.frame f
  | take =>
    have hnone : queued K a .take = [] := List.drop_eq_nil_of_le (by simp [App.step])
    exact scanned_quiet h.chosen (by simp [taken]) hnone rfl
  | _ => exact scanned_quiet h.chosen (by simp [taken]) (queued_same rfl) rfl

/-- A thread that has ended and was neither cancelled nor answered is answered by the next frame. -/
lemma Coherent.next (h : Coherent a chunks results) (hjob : a.jobs[i]? = some job)
    (hended : job.stage = .ended) (hflag : job.cancelled = false) :
    i ∈ (results ++ taken a (.frame f)).map Prod.fst := by
  rw [List.map_append, List.mem_append]
  rcases h.awaited i job hjob hflag with ⟨hheld, hreaches⟩ | hdone
  · right
    obtain ⟨r, hr⟩ := Option.isSome_iff_exists.mp (hreaches hended)
    have hreceived : a.received = some (i, r) := by
      unfold App.received
      rw [hheld]
      dsimp only
      rw [hjob]
      exact congrArg (Option.map fun r => (i, r)) hr
    simp [taken, hreceived]
  · exact .inl hdone

/-- In every interleaving of the window, the hashing threads and the engine: each choice of a file
is answered at most once and in order, with the hashes of all that its thread has read. Only the
file chosen last is answered, unless it was cancelled, and it is so by the first frame after its
thread has ended. It is published with just these hashes if the store does not know them, the engine
runs and takes another command, and an alert names a row that has them if the store does. -/
theorem scans_answered (B : Hasher K.blake3) (S : Hasher sha256) (moves : List Move) :
    let start : App B S := .start
    let results := collected (App.step K) taken start moves
    let reached := run (App.step K) start moves
    (results.map Prod.fst).Pairwise (· < ·) ∧
      (∀ i h, (i, .ok h) ∈ results →
        Digests K sha256 h (collected (App.step K) (got i) start moves)) ∧
      (∀ (f : Frame) (i : ℕ) (job : Job B S), reached.jobs[i]? = some job → job.stage = .ended →
        job.cancelled = false → i ∈ (results ++ taken reached (.frame f)).map Prod.fst) ∧
      Along (App.step K) (Scanned K) start moves := by
  intro start results reached
  have hrun := coherent_start.run (a := start) (K := K) moves
  simp only [List.nil_append] at hrun
  refine ⟨hrun.ordered, fun i h hi => ?_, fun f i job hjob hended hflag => ?_,
    along_iff.mpr fun before m after _ => ?_⟩
  · obtain ⟨job, -, -, hdigests⟩ := hrun.answered i (.ok h) hi
    exact hdigests h rfl
  · exact hrun.next hjob hended hflag
  · exact (coherent_start.run (a := start) (K := K) before).scanned m

/-- A hash that keeps its input until the end. -/
def Hasher.whole (digest : Bytes → Hash32) : Hasher digest where
  State := Bytes
  new := []
  update seen chunk := seen ++ chunk
  finalize := digest
  streams chunks := by
    have hseen (seen : Bytes) : chunks.foldl (· ++ ·) seen = seen ++ chunks.flatten := by
      induction chunks generalizing seen with
      | nil => simp
      | cons chunk chunks ih => simp [ih]
    rw [hseen, List.nil_append]

def sampleFrame : Frame :=
  ⟨.open false, ⟨fun _ => "", fun _ => true, 0⟩, 0, false, none, false, none⟩

def sampleScan : List Move :=
  [.frame { sampleFrame with choose := some ⟨"a", none⟩ }, .open 0 (.size 2), .ask 0,
    .read 0 (some ⟨[1, 2], by decide⟩)]

abbrev sampleWhole : Hasher samplePrimitives.blake3 := .whole _

theorem scans_answered_sample :
    let moves := sampleScan ++ [.ask 0, .read 0 (some ⟨[], by decide⟩), .send 0, .frame sampleFrame]
    let start : App sampleWhole sampleWhole := .start
    (collected (App.step samplePrimitives) (queued samplePrimitives) start moves).length = 1 ∧
      ∀ i h, (i, .ok h) ∈ collected (App.step samplePrimitives) taken start moves →
        Digests samplePrimitives samplePrimitives.blake3 h
          (collected (App.step samplePrimitives) (got i) start moves) :=
  ⟨by decide +kernel, (scans_answered sampleWhole sampleWhole _).2.1⟩

/-- The reads that a cancelled thread can still make. -/
def Stage.reads : Stage B S → ℕ
  | .reading _ => 1
  | _ => 0

/-- A thread that was told to stop goes on by at most one read. -/
structure Job.Stops (job job' : Job B S) (chunks : List Bytes) : Prop where
  cancelled : job'.cancelled = true
  reads : chunks.length + job'.stage.reads ≤ job.stage.reads

lemma Job.stops_self (hflag : job.cancelled = true) : job.Stops job [] :=
  ⟨hflag, by simp⟩

lemma Job.stops_open (hflag : job.cancelled = true) (opened : Opened) :
    job.Stops (job.open opened) [] := by
  refine ⟨(job.keeps_open opened).cancelled.trans hflag, ?_⟩
  unfold Job.open
  rcases hstage : job.stage with _ | h | h | r | _
  case opening => cases opened <;> exact le_rfl
  all_goals simp [hstage]

lemma Job.stops_ask (hflag : job.cancelled = true) : job.Stops job.ask [] := by
  refine ⟨job.keeps_ask.cancelled.trans hflag, ?_⟩
  unfold Job.ask
  rcases hstage : job.stage with _ | h | h | r | _
  case asking =>
    dsimp only
    rw [if_pos hflag]
    exact le_rfl
  all_goals simp [hstage]

lemma Job.stops_read (hflag : job.cancelled = true) :
    job.Stops (job.read outcome) (job.got outcome) := by
  refine ⟨(job.keeps_read outcome).cancelled.trans hflag, ?_⟩
  unfold Job.read Job.got
  rcases hstage : job.stage with _ | h | h | r | _
  case reading =>
    rcases outcome with _ | chunk
    · exact Nat.zero_le _
    · dsimp only
      split_ifs <;> exact le_rfl
  all_goals simp [hstage]

lemma Job.stops_send (hflag : job.cancelled = true) (held : Bool) :
    job.Stops (job.send held) [] := by
  refine ⟨(job.keeps_send held).cancelled.trans hflag, ?_⟩
  unfold Job.send
  rcases hstage : job.stage with _ | h | h | r | _
  case sending => exact Nat.zero_le _
  all_goals simp [hstage]

/-- A frame can set the flag of a thread, and nothing else of it. -/
lemma update_job (f : Frame) (hjob : a.jobs[i]? = some job) (hflag : job.cancelled = true) :
    ∃ job', (a.update K f).jobs[i]? = some job' ∧ job.Stops job' [] := by
  have hcancel {b : App B S} (hb : ∃ job', b.jobs[i]? = some job' ∧ job.Stops job' []) :
      ∃ job', b.cancelHash.jobs[i]? = some job' ∧ job.Stops job' [] := by
    obtain ⟨job', hjob', hstops⟩ := hb
    unfold App.cancelHash
    rcases b.scanner.cancel with _ | j
    · exact ⟨job', hjob', hstops⟩
    · dsimp only
      rw [getElem?_modified, hjob']
      split_ifs
      · exact ⟨_, rfl, rfl, hstops.reads⟩
      · exact ⟨job', rfl, hstops⟩
  have hstart {b : App B S} (path : Path)
      (hb : ∃ job', b.jobs[i]? = some job' ∧ job.Stops job' []) :
      ∃ job', (b.startHash path).jobs[i]? = some job' ∧ job.Stops job' [] := by
    obtain ⟨job', hjob', hstops⟩ := hcancel hb
    refine ⟨job', ?_, hstops⟩
    change (b.cancelHash.jobs ++ [_])[i]? = some job'
    rw [List.getElem?_append_left (List.getElem?_eq_some_iff.mp hjob').1]
    exact hjob'
  have hpoll : ∃ job', (a.pollHash K f).2.jobs[i]? = some job' ∧ job.Stops job' [] := by
    refine ⟨job, ?_, Job.stops_self hflag⟩
    unfold App.pollHash
    rcases a.received with _ | ⟨j, r⟩
    · exact hjob
    · exact (congrArg (·[i]?) (processHashResult_outcome _ f r).kept.jobs).trans hjob
  unfold App.update App.controls
  dsimp only
  rcases f.choose with _ | path
  all_goals split_ifs
  all_goals
    first
    | exact hpoll
    | exact hcancel hpoll
    | exact hstart path hpoll
    | exact hstart path (hcancel hpoll)

lemma step_stops (m : Move) (hjob : a.jobs[i]? = some job) (hflag : job.cancelled = true) :
    ∃ job', (a.step K m).jobs[i]? = some job' ∧ job.Stops job' (got i a m) := by
  have hmodify {step : Job B S → Job B S} {j : ℕ} {new : List Bytes}
      (hother : i ≠ j → new = []) (hself : i = j → job.Stops (step job) new) :
      ∃ job', (a.modifyJob j step).jobs[i]? = some job' ∧ job.Stops job' new := by
    unfold App.modifyJob
    dsimp only
    rw [getElem?_modified, hjob]
    split_ifs with hij
    · exact ⟨step job, rfl, hself hij.symm⟩
    · exact ⟨job, rfl, (hother (Ne.symm hij)).symm ▸ Job.stops_self hflag⟩
  cases m with
  | frame f => exact update_job f hjob hflag
  | «open» j opened => exact hmodify (fun _ => rfl) fun _ => Job.stops_open hflag opened
  | ask j => exact hmodify (fun _ => rfl) fun _ => Job.stops_ask hflag
  | read j outcome =>
    refine hmodify (fun hij => if_neg hij) fun hij => ?_
    have hgot : got i a (.read j outcome) = job.got outcome := by
      unfold got
      dsimp only
      rw [if_pos hij, hjob]
    rw [hgot]
    exact Job.stops_read hflag
  | send j => exact hmodify (fun _ => rfl) fun _ => Job.stops_send hflag _
  | take => exact ⟨job, hjob, Job.stops_self hflag⟩
  | stop => exact ⟨job, hjob, Job.stops_self hflag⟩

lemma cancelled_run (h : Coherent a chunks results) (hjob : a.jobs[i]? = some job)
    (hflag : job.cancelled = true) (moves : List Move) :
    (collected (App.step K) (got i) a moves).length ≤ job.stage.reads ∧
      ∀ r, (i, r) ∉ collected (App.step K) taken a moves := by
  induction moves generalizing a job chunks results with
  | nil => simp [collected]
  | cons m moves ih =>
    obtain ⟨job', hjob', hflag', hreads⟩ := step_stops (K := K) m hjob hflag
    obtain ⟨hlength, hnone⟩ := ih (h.step m) hjob' hflag'
    constructor
    · rw [collected, List.length_append]
      omega
    · intro r hr
      rw [collected] at hr
      rcases List.mem_append.mp hr with hr | hr
      · -- the thread that is listened to is not cancelled
        obtain ⟨held, hlast, hclear, -, hlen⟩ := (h.scanned m).chosen i r hr
        rw [List.getLast?_eq_getElem?, ← hlen, Nat.add_sub_cancel, hjob] at hlast
        cases hlast
        rw [hclear] at hflag
        cases hflag
      · exact hnone r hr

/-- Whatever follows, a thread that was told to stop reads at most once more, and its result is
never shown. -/
theorem cancelled_stops (before after : List Move)
    (hjob : (run (App.step K) (.start : App B S) before).jobs[i]? = some job)
    (hflag : job.cancelled = true) :
    let reached := run (App.step K) (.start : App B S) before
    (collected (App.step K) (got i) reached after).length ≤ 1 ∧
      ∀ r, (i, r) ∉ collected (App.step K) taken reached after := by
  obtain ⟨hlength, hnone⟩ :=
    cancelled_run (coherent_start.run before) hjob hflag after
  refine ⟨hlength.trans ?_, hnone⟩
  cases job.stage <;> simp [Stage.reads]

/-- The thread is cancelled before its second read, which it still makes. -/
theorem cancelled_stops_sample :
    let cancelling := sampleScan ++ [.ask 0, .frame { sampleFrame with cancel := true }]
    let after := [.read 0 (some ⟨[3], by decide⟩), .ask 0, .read 0 (some ⟨[4], by decide⟩), .send 0,
      .frame sampleFrame]
    let reached := run (App.step samplePrimitives)
      (.start : App sampleWhole sampleWhole) cancelling
    collected (App.step samplePrimitives) (got 0) reached after = [[3]] ∧
      (collected (App.step samplePrimitives) (got 0) reached after).length ≤ 1 ∧
      ∀ r, (0, r) ∉ collected (App.step samplePrimitives) taken reached after := by
  intro cancelling after reached
  have hflags : reached.jobs.map Job.cancelled = [true] := by decide +kernel
  obtain ⟨job, rest, hjobs, hflag, -⟩ := List.map_eq_cons_iff.mp hflags
  have hjob : reached.jobs[0]? = some job := by rw [hjobs]; rfl
  exact ⟨by decide +kernel, cancelled_stops cancelling after hjob hflag⟩

end Protonet.FileScan
