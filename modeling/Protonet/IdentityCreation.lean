import Protonet.Record
import Protonet.StepRun

/-!
# Who creates the identity

Any number of calls of `load_or_create` share a directory. One that finds no identity takes the
lock file, looks again, writes a temporary file and renames it. Every access to the file system is a
move of its own, may fail, and any call may crash before it.
-/
namespace Protonet.IdentityCreation
open StepRun Postcard Record

/-- The third-party parts: key pairs with their encoding, the hash that names temporary files and
the data protection of the platform, which salts what it protects. -/
structure Platform where
  Keypair : Type
  blake3 : Bytes → Hash32
  toProtobufEncoding : Keypair → Option Bytes
  fromProtobufEncoding : Bytes → Option Keypair
  protect : ℕ → Bytes → Option Bytes
  unprotect : Bytes → Option Bytes

/-- What is encoded or protected can be read back; a protected text is never empty. -/
structure Platform.Sound (K : Platform) : Prop where
  decodes : ∀ k b, K.toProtobufEncoding k = some b → K.fromProtobufEncoding b = some k
  unprotects : ∀ salt b c, K.protect salt b = some c → K.unprotect c = some b
  nonempty : ∀ salt b c, K.protect salt b = some c → c ≠ []

def FILE_MAGIC : Bytes := ascii "PROTONET-DPAPI1" ++ [0]

variable (K : Platform)

/-- `load`, of what was read. -/
def load (stored : Bytes) : Except String K.Keypair :=
  if stored.length ≤ FILE_MAGIC.length ∨ stored.take FILE_MAGIC.length ≠ FILE_MAGIC then
    .error "invalid Protonet identity file header"
  else
    match K.unprotect (stored.drop FILE_MAGIC.length) with
    | none => .error "Windows DPAPI could not decrypt the Protonet identity"
    | some plaintext =>
      match K.fromProtobufEncoding plaintext with
      | none => .error "decrypted identity is malformed"
      | some keypair => .ok keypair

/-- The bytes to write for a new key pair. -/
def sealIdentity (keypair : K.Keypair) (salt : ℕ) : Except String Bytes :=
  match K.toProtobufEncoding keypair with
  | none => .error "failed to serialize Ed25519 identity"
  | some plaintext =>
    match K.protect salt plaintext with
    | none => .error "Windows DPAPI identity encryption failed"
    | some ciphertext => .ok (FILE_MAGIC ++ ciphertext)

/-- Where a call stands: the next access to the file system it makes. -/
inductive Stage
  | loadOrCreate
  /-- Reading the file; a call that holds the lock drops it afterwards. -/
  | load (locked : Bool)
  | createParent
  | acquire
  /-- The lock file is there and the process id is written into it. -/
  | writeLock
  | lookAgain
  | generate
  | openTemp (keypair : K.Keypair) (bytes : Bytes)
  | writeTemp (keypair : K.Keypair) (bytes : Bytes) (written : ℕ)
  | rename (keypair : K.Keypair) (bytes : Bytes)
  | renameFailed (bytes : Bytes) (error : String)
  /-- Afterwards the call loads the winner, or fails. -/
  | removeTemp (bytes : Bytes) (error : Option String)
  | dropLock (result : Except String K.Keypair)
  | returned (result : Except String K.Keypair)
  | crashed

/-- Temporary files are named by process id and content. -/
abbrev TempPath := ℕ × Hash32

variable (ι : Type) [DecidableEq ι]

structure Directory where
  file : Option Bytes
  lock : Bool
  temps : TempPath → Option Bytes

structure World where
  directory : Directory
  calls : ι → Stage K

inductive Move
  | go
  /-- A key pair and a salt are drawn. -/
  | generate (keypair : K.Keypair) (salt : ℕ)
  | write (n : ℕ)
  | timeout
  | fail (error : String)
  | crash

variable {K ι}

def World.start (directory : Directory) : World K ι := ⟨directory, fun _ => .loadOrCreate⟩

def World.set (w : World K ι) (i : ι) (stage : Stage K) : World K ι :=
  { w with calls := Function.update w.calls i stage }

/-- The lock guard is dropped on the way out. -/
def leave (locked : Bool) (result : Except String K.Keypair) : Stage K :=
  if locked then .dropLock result else .returned result

def tempPath (K : Platform) (pid : ℕ) (bytes : Bytes) : TempPath := (pid, K.blake3 bytes)

def Directory.putTemp (d : Directory) (path : TempPath) (content : Option Bytes) : Directory :=
  { d with temps := Function.update d.temps path content }

/-- One access to the directory by a call of a process; what does not fit the stage does nothing. -/
def advance (path : String) (pid : ℕ) (d : Directory) :
    Stage K → Move K → Directory × Stage K
  | .loadOrCreate, .go => (d, if d.file.isSome then .load false else .createParent)
  | .load locked, .go =>
    match d.file with
    | none => (d, leave locked (.error ("failed to read " ++ path)))
    | some stored => (d, leave locked (load K stored))
  | .load locked, .fail _ => (d, leave locked (.error ("failed to read " ++ path)))
  | .createParent, .go => (d, .acquire)
  | .createParent, .fail error => (d, .returned (.error error))
  | .acquire, .go => if d.lock then (d, .acquire) else ({ d with lock := true }, .writeLock)
  | .acquire, .timeout => (d, .returned (.error "timed out waiting for identity creation lock"))
  | .acquire, .fail error => (d, .returned (.error error))
  | .writeLock, .go => (d, .lookAgain)
  -- The guard does not exist yet, so the lock file stays.
  | .writeLock, .fail error => (d, .returned (.error error))
  | .lookAgain, .go => (d, if d.file.isSome then .load true else .generate)
  | .generate, .generate keypair salt =>
    match sealIdentity K keypair salt with
    | .error error => (d, .dropLock (.error error))
    | .ok bytes => (d, .openTemp keypair bytes)
  | .openTemp keypair bytes, .go =>
    match d.temps (tempPath K pid bytes) with
    | some _ => (d, .dropLock (.error "File exists"))
    | none => (d.putTemp (tempPath K pid bytes) (some []), .writeTemp keypair bytes 0)
  | .openTemp _ _, .fail error => (d, .dropLock (.error error))
  | .writeTemp keypair bytes written, .write n =>
    (d.putTemp (tempPath K pid bytes) (some (bytes.take (written + n))),
      .writeTemp keypair bytes (written + n))
  | .writeTemp keypair bytes written, .go =>
    (d, if bytes.length ≤ written then .rename keypair bytes
      else .writeTemp keypair bytes written)
  | .writeTemp _ _ _, .fail error => (d, .dropLock (.error error))
  -- A rename puts the new file in place of one that is there.
  | .rename keypair bytes, .go =>
    match d.temps (tempPath K pid bytes) with
    | none => (d, .renameFailed bytes "No such file or directory")
    | some content =>
      ({ d.putTemp (tempPath K pid bytes) none with file := some content },
        .dropLock (.ok keypair))
  | .rename _ bytes, .fail error => (d, .renameFailed bytes error)
  | .renameFailed bytes error, .go =>
    (d, .removeTemp bytes (if d.file.isSome then none else some error))
  | .removeTemp bytes error, .go =>
    (d.putTemp (tempPath K pid bytes) none,
      match error with
      | none => .load true
      | some error => .dropLock (.error error))
  | .removeTemp _ error, .fail _ =>
    (d,
      match error with
      | none => .load true
      | some error => .dropLock (.error error))
  | .dropLock result, .go => ({ d with lock := false }, .returned result)
  | .dropLock result, .fail _ => (d, .returned result)
  | stage, _ => (d, stage)

/-- A crash ends a call that has not returned and leaves the directory as it is. -/
def World.step (path : String) (pid : ι → ℕ) (w : World K ι) : ι × Move K → World K ι
  | (i, .crash) =>
    match w.calls i with
    | .returned _ => w
    | _ => w.set i .crashed
  | (i, move) =>
    let (directory, stage) := advance path (pid i) w.directory (w.calls i) move
    { w.set i stage with directory }

variable {d d' : Directory} {stage stage' : Stage K} {w : World K ι} {i j : ι} {pid : ι → ℕ}
  {process salt : ℕ} {k : K.Keypair} {bytes content : Bytes} {path : String}

def Stored (d : Directory) (k : K.Keypair) : Prop := ∃ content, d.file = some content ∧
  load K content = .ok k

def Complete (K : Platform) (d : Directory) : Prop :=
  ∀ content, d.file = some content → ∃ k, load K content = .ok k

lemma load_sealIdentity (hK : K.Sound) (h : sealIdentity K k salt = .ok bytes) :
    load K bytes = .ok k := by
  unfold sealIdentity at h
  rcases hplain : K.toProtobufEncoding k with _ | plaintext
  · simp [hplain] at h
  · rcases hcipher : K.protect salt plaintext with _ | ciphertext
    · simp [hplain, hcipher] at h
    · simp only [hplain, hcipher, Except.ok.injEq] at h
      subst h
      have hlong : FILE_MAGIC.length < (FILE_MAGIC ++ ciphertext).length := by
        rw [List.length_append]
        have := List.length_pos_iff.mpr (hK.nonempty _ _ _ hcipher)
        omega
      unfold load
      have hheader : ¬ ((FILE_MAGIC ++ ciphertext).length ≤ FILE_MAGIC.length ∨
          FILE_MAGIC ≠ FILE_MAGIC) := by
        rintro (hshort | hne)
        · omega
        · exact hne rfl
      rw [List.take_left, List.drop_left, if_neg hheader]
      simp only [hK.unprotects _ _ _ hcipher, hK.decodes _ _ hplain]

/-- The calls that made the lock file and have not dropped it. -/
def Stage.holds : Stage K → Prop
  | .load locked => locked = true
  | .loadOrCreate | .createParent | .acquire | .returned _ | .crashed => False
  | _ => True

/-- What is known of the directory at a stage. -/
def Stage.Sound (process : ℕ) (d : Directory) : Stage K → Prop
  | .generate => d.file = none
  | .openTemp k bytes => d.file = none ∧ Protonet.IdentityCreation.load K bytes = .ok k
  | .writeTemp k bytes written => d.file = none ∧
    Protonet.IdentityCreation.load K bytes = .ok k ∧
      d.temps (tempPath K process bytes) = some (bytes.take written)
  | .rename k bytes => d.file = none ∧ Protonet.IdentityCreation.load K bytes = .ok k ∧
    d.temps (tempPath K process bytes) = some bytes
  | .dropLock (.ok k) => Stored d k
  | .returned (.ok k) => Stored d k
  | _ => True

/-- What an access leaves: an identity is not replaced, only the holder of the lock touches the
directory, and the lock is only taken when it is free. -/
structure Advanced (process : ℕ) (d : Directory) (stage : Stage K) (d' : Directory)
    (stage' : Stage K) : Prop where
  file : ∀ content, d.file = some content → d'.file = some content
  complete : Complete K d'
  sound : stage'.Sound process d'
  lock : stage'.holds → d'.lock = true
  quiet : ¬ stage.holds → d.lock = true → d' = d
  holds : stage'.holds → stage.holds ∨ d.lock = false

lemma Advanced.stay (hcomplete : Complete K d) (hlock : stage.holds → d.lock = true)
    (hsound : stage'.Sound process d) (hholds : stage'.holds → stage.holds) :
    Advanced process d stage d stage' where
  file _ h := h
  complete := hcomplete
  sound := hsound
  lock h := hlock (hholds h)
  quiet _ _ := rfl
  holds h := .inl (hholds h)

lemma Advanced.temp {temp : TempPath} {value : Option Bytes} (hcomplete : Complete K d)
    (hheld : stage.holds) (hlock : stage.holds → d.lock = true)
    (hsound : stage'.Sound process (d.putTemp temp value)) :
    Advanced process d stage (d.putTemp temp value) stage' where
  file _ h := h
  complete := hcomplete
  sound := hsound
  lock _ := hlock hheld
  quiet h := absurd hheld h
  holds _ := .inl hheld

lemma sound_leave {locked : Bool} {stored : Bytes} (h : d.file = some stored) :
    (leave locked (Protonet.IdentityCreation.load K stored)).Sound process d := by
  rcases hload : Protonet.IdentityCreation.load K stored with error | k
  · cases locked <;> trivial
  · cases locked <;> exact ⟨stored, h, hload⟩

lemma holds_leave {locked : Bool} {result : Except String K.Keypair}
    (h : (leave locked result).holds) : locked = true := by
  cases locked
  · exact h.elim
  · rfl

abbrev Advances (path : String) (process : ℕ) (d : Directory) (stage : Stage K) (move : Move K) :
    Prop :=
  Advanced process d stage (advance path process d stage move).1
    (advance path process d stage move).2

lemma advances_load {locked : Bool} (move : Move K) (hcomplete : Complete K d)
    (hlock : (Stage.load locked : Stage K).holds → d.lock = true) :
    Advances path process d (.load locked) move := by
  have hunread : (leave locked (.error ("failed to read " ++ path)) : Stage K).Sound process d := by
    cases locked <;> trivial
  cases move with
  | go =>
    unfold Advances advance
    dsimp only
    split
    · exact .stay hcomplete hlock hunread holds_leave
    · next stored hstored => exact .stay hcomplete hlock (sound_leave hstored) holds_leave
  | fail error => exact .stay hcomplete hlock hunread holds_leave
  | _ => exact .stay hcomplete hlock trivial id

lemma advances_acquire (move : Move K) (hcomplete : Complete K d) :
    Advances path process d .acquire move := by
  have hsame : Advanced process d (.acquire : Stage K) d .acquire :=
    .stay hcomplete False.elim trivial id
  cases move with
  | go =>
    unfold Advances advance
    dsimp only
    split_ifs with htaken
    · exact hsame
    · exact ⟨fun _ h => h, hcomplete, trivial, fun _ => rfl, fun _ h => absurd h htaken,
        fun _ => .inr (Bool.eq_false_iff.mpr htaken)⟩
  | timeout => exact .stay hcomplete False.elim trivial id
  | fail error => exact .stay hcomplete False.elim trivial id
  | _ => exact hsame

lemma advances_openTemp (move : Move K) (hcomplete : Complete K d)
    (hlock : (Stage.openTemp k bytes).holds → d.lock = true)
    (hsound : (Stage.openTemp k bytes).Sound process d) :
    Advances path process d (.openTemp k bytes) move := by
  cases move with
  | go =>
    unfold Advances advance
    dsimp only
    split
    · exact .stay hcomplete hlock trivial id
    · refine .temp hcomplete trivial hlock ⟨hsound.1, hsound.2, ?_⟩
      exact Function.update_self _ _ _
  | fail error => exact .stay hcomplete hlock trivial id
  | _ => exact .stay hcomplete hlock hsound id

/-- Every write leaves a longer prefix of what is to be written, until all of it is there. -/
lemma advances_writeTemp {written : ℕ} (move : Move K) (hcomplete : Complete K d)
    (hlock : (Stage.writeTemp k bytes written).holds → d.lock = true)
    (hsound : (Stage.writeTemp k bytes written).Sound process d) :
    Advances path process d (.writeTemp k bytes written) move := by
  cases move with
  | go =>
    unfold Advances advance
    dsimp only
    split_ifs with hall
    · obtain ⟨hfile, hload, htemp⟩ := hsound
      rw [List.take_of_length_le hall] at htemp
      exact .stay hcomplete hlock ⟨hfile, hload, htemp⟩ id
    · exact .stay hcomplete hlock hsound id
  | write n =>
    exact .temp hcomplete trivial hlock ⟨hsound.1, hsound.2.1, Function.update_self _ _ _⟩
  | fail error => exact .stay hcomplete hlock trivial id
  | _ => exact .stay hcomplete hlock hsound id

/-- The rename finds no identity, and puts a complete one in its place. -/
lemma advances_rename (move : Move K) (hcomplete : Complete K d)
    (hlock : (Stage.rename k bytes).holds → d.lock = true)
    (hsound : (Stage.rename k bytes).Sound process d) :
    Advances path process d (.rename k bytes) move := by
  cases move with
  | go =>
    obtain ⟨hfile, hload, htemp⟩ := hsound
    unfold Advances advance
    dsimp only
    rw [htemp]
    refine ⟨fun content h => ?_, fun content h => ?_, ⟨bytes, rfl, hload⟩,
      fun _ => hlock trivial, fun h => absurd trivial h, fun _ => .inl trivial⟩
    · rw [hfile] at h
      cases h
    · obtain rfl := Option.some.inj h
      exact ⟨k, hload⟩
  | fail error => exact .stay hcomplete hlock trivial id
  | _ => exact .stay hcomplete hlock hsound id

lemma advances_removeTemp {error : Option String} (move : Move K) (hcomplete : Complete K d)
    (hlock : (Stage.removeTemp bytes error : Stage K).holds → d.lock = true) :
    Advances path process d (.removeTemp bytes error) move := by
  cases move with
  | go =>
    cases error with
    | none => exact .temp hcomplete trivial hlock trivial
    | some error => exact .temp hcomplete trivial hlock trivial
  | fail _ =>
    cases error with
    | none => exact .stay hcomplete hlock trivial fun _ => trivial
    | some error => exact .stay hcomplete hlock trivial id
  | _ => exact .stay hcomplete hlock trivial id

lemma advances_dropLock {result : Except String K.Keypair} (move : Move K)
    (hcomplete : Complete K d) (hlock : (Stage.dropLock result).holds → d.lock = true)
    (hsound : (Stage.dropLock result).Sound process d) :
    Advances path process d (.dropLock result) move := by
  have hresult : (Stage.returned result).Sound process d := by
    cases result with
    | error error => trivial
    | ok k => exact hsound
  cases move with
  | go =>
    refine ⟨fun _ h => h, hcomplete, ?_, False.elim, fun h => absurd trivial h, False.elim⟩
    cases result with
    | error error => trivial
    | ok k => exact hsound
  | fail _ => exact .stay hcomplete hlock hresult False.elim
  | _ => exact .stay hcomplete hlock hsound id

lemma advanced (hK : K.Sound) (move : Move K) (hcomplete : Complete K d)
    (hlock : stage.holds → d.lock = true) (hsound : stage.Sound process d) :
    Advances path process d stage move := by
  have hsame : Advanced process d stage d stage := .stay hcomplete hlock hsound id
  cases stage with
  | loadOrCreate =>
    cases move with
    | go =>
      unfold Advances advance
      dsimp only
      split_ifs
      · exact .stay hcomplete hlock trivial (fun h => Bool.false_ne_true h)
      · exact .stay hcomplete hlock trivial id
    | _ => exact hsame
  | load locked => exact advances_load move hcomplete hlock
  | createParent =>
    cases move with
    | go => exact .stay hcomplete hlock trivial id
    | fail error => exact .stay hcomplete hlock trivial id
    | _ => exact hsame
  | acquire => exact advances_acquire move hcomplete
  | writeLock =>
    cases move with
    | go => exact .stay hcomplete hlock trivial id
    | fail error => exact .stay hcomplete hlock trivial False.elim
    | _ => exact hsame
  | lookAgain =>
    cases move with
    | go =>
      unfold Advances advance
      dsimp only
      split_ifs with hfile
      · exact .stay hcomplete hlock trivial fun _ => trivial
      · exact .stay hcomplete hlock (Option.not_isSome_iff_eq_none.mp hfile) id
    | _ => exact hsame
  | generate =>
    cases move with
    | generate k salt =>
      unfold Advances advance
      dsimp only
      rcases hseal : sealIdentity K k salt with error | bytes
      · exact .stay hcomplete hlock trivial id
      · exact .stay hcomplete hlock ⟨hsound, load_sealIdentity hK hseal⟩ id
    | _ => exact hsame
  | openTemp k bytes => exact advances_openTemp move hcomplete hlock hsound
  | writeTemp k bytes written => exact advances_writeTemp move hcomplete hlock hsound
  | rename k bytes => exact advances_rename move hcomplete hlock hsound
  | renameFailed bytes error =>
    cases move with
    | go => exact .stay hcomplete hlock trivial id
    | _ => exact hsame
  | removeTemp bytes error => exact advances_removeTemp move hcomplete hlock
  | dropLock result => exact advances_dropLock move hcomplete hlock hsound
  | returned result => cases move <;> exact hsame
  | crashed => cases move <;> exact hsame

/-- One call at a time has the lock, and each stands where it may. -/
structure Agreed (pid : ι → ℕ) (w : World K ι) : Prop where
  complete : Complete K w.directory
  exclusive : ∀ i j, (w.calls i).holds → (w.calls j).holds → i = j
  locked : ∀ i, (w.calls i).holds → w.directory.lock = true
  sound : ∀ i, (w.calls i).Sound (pid i) w.directory

/-- What a call without the lock knows stays true while the file stays. -/
lemma Stage.Sound.mono (h : stage.Sound process d) (hfree : ¬ stage.holds)
    (hfile : ∀ content, d.file = some content → d'.file = some content) :
    stage.Sound process d' := by
  cases stage with
  | returned result =>
    cases result with
    | error error => trivial
    | ok k =>
      obtain ⟨content, hcontent, hload⟩ := h
      exact ⟨content, hfile content hcontent, hload⟩
  | loadOrCreate => trivial
  | load locked => trivial
  | createParent => trivial
  | acquire => trivial
  | crashed => trivial
  | _ => exact absurd trivial hfree

omit [DecidableEq ι] in
lemma agreed_start (hcomplete : Complete K d) : Agreed pid (.start d : World K ι) :=
  ⟨hcomplete, nofun, nofun, fun _ => trivial⟩

lemma Agreed.advance (h : Agreed pid w)
    (hstep : Advanced (pid i) w.directory (w.calls i) d' stage') :
    Agreed pid { w.set i stage' with directory := d' } := by
  have hother : ∀ j, j ≠ i → Function.update w.calls i stage' j = w.calls j :=
    fun j hj => Function.update_of_ne hj _ _
  have hself : Function.update w.calls i stage' i = stage' := Function.update_self _ _ _
  have hkept : ∀ j, j ≠ i → (w.calls j).holds → d' = w.directory := by
    intro j hj hholds
    exact hstep.quiet (fun hi => hj (h.exclusive j i hholds hi)) (h.locked j hholds)
  have halone : ∀ j, stage'.holds → (Function.update w.calls i stage' j).holds → j = i := by
    intro j hi hholds
    by_contra hj
    rw [hother j hj] at hholds
    rcases hstep.holds hi with hheld | hfree
    · exact hj (h.exclusive j i hholds hheld)
    · rw [h.locked j hholds] at hfree
      cases hfree
  refine ⟨hstep.complete, fun j l hj hl => ?_, fun j hj => ?_, fun j => ?_⟩
  · change (Function.update w.calls i stage' j).holds at hj
    change (Function.update w.calls i stage' l).holds at hl
    by_cases hji : j = i
    · subst hji
      rw [hself] at hj
      exact (halone l hj hl).symm
    · by_cases hli : l = i
      · subst hli
        rw [hself] at hl
        exact halone j hl hj
      · rw [hother j hji] at hj
        rw [hother l hli] at hl
        exact h.exclusive j l hj hl
  · change (Function.update w.calls i stage' j).holds at hj
    by_cases hji : j = i
    · subst hji
      rw [hself] at hj
      exact hstep.lock hj
    · rw [hother j hji] at hj
      change d'.lock = true
      rw [hkept j hji hj]
      exact h.locked j hj
  · change (Function.update w.calls i stage' j).Sound (pid j) d'
    by_cases hji : j = i
    · subst hji
      rw [hself]
      exact hstep.sound
    · rw [hother j hji]
      by_cases hholds : (w.calls j).holds
      · rw [hkept j hji hholds]
        exact h.sound j
      · exact (h.sound j).mono hholds hstep.file

lemma step_of_ne_crash {move : Move K} (h : move ≠ .crash) : w.step path pid (i, move) =
    { w.set i (advance path (pid i) w.directory (w.calls i) move).2 with
      directory := (advance path (pid i) w.directory (w.calls i) move).1 } := by
  cases move with
  | crash => exact absurd rfl h
  | _ => rfl

lemma agreed_step (hK : K.Sound) (h : Agreed pid w) (move : ι × Move K) :
    Agreed pid (w.step path pid move) ∧ ∀ content, w.directory.file = some content →
      (w.step path pid move).directory.file = some content := by
  obtain ⟨i, move⟩ := move
  by_cases hcrash : move = .crash
  · subst hcrash
    unfold World.step
    dsimp only
    split
    · exact ⟨h, fun _ hfile => hfile⟩
    · exact ⟨h.advance (.stay h.complete (h.locked i) trivial False.elim), fun _ hfile => hfile⟩
  · have hstep := @advanced K w.directory (w.calls i) (pid i) path hK move h.complete (h.locked i)
      (h.sound i)
    rw [step_of_ne_crash hcrash]
    exact ⟨h.advance hstep, hstep.file⟩

lemma agreed_run (hK : K.Sound) (h : Agreed pid w) (moves : List (ι × Move K)) :
    Agreed pid (run (World.step path pid) w moves) ∧
      ∀ content, w.directory.file = some content →
        (run (World.step path pid) w moves).directory.file = some content := by
  induction moves generalizing w with
  | nil => exact ⟨h, fun _ hfile => hfile⟩
  | cons move moves ih =>
    obtain ⟨hnext, hfile⟩ := @agreed_step K ι _ w pid path hK h move
    obtain ⟨hend, hrest⟩ := ih hnext
    exact ⟨hend, fun content hcontent => hrest content (hfile content hcontent)⟩

/-- However the calls interleave, fail, time out and crash, the calls that succeed return the same
identity, which is the one in the file; the file is absent or complete at every moment and stays
as it is once it is there. -/
theorem creation_agrees (hK : K.Sound) (pid : ι → ℕ) (path : String) (hstart : Complete K d)
    (moves : List (ι × Move K)) :
    (∀ i k, (run (World.step path pid) (.start d) moves).calls i = .returned (.ok k) →
        Stored (run (World.step path pid) (.start d) moves).directory k) ∧
      (∀ i j k l, (run (World.step path pid) (.start d) moves).calls i = .returned (.ok k) →
        (run (World.step path pid) (.start d) moves).calls j = .returned (.ok l) → k = l) ∧
      Complete K (run (World.step path pid) (.start d) moves).directory ∧
      ∀ more content,
        (run (World.step path pid) (.start d) moves).directory.file = some content →
          (run (World.step path pid) (.start d) (moves ++ more)).directory.file =
            some content := by
  have hagreed := (@agreed_run K ι _ _ pid path hK (agreed_start hstart) moves).1
  have hstored : ∀ i k, (run (World.step path pid) (.start d) moves).calls i =
      .returned (.ok k) → Stored (run (World.step path pid) (.start d) moves).directory k := by
    intro i k hi
    have hsound := hagreed.sound i
    rwa [hi] at hsound
  refine ⟨hstored, fun i j k l hi hj => ?_, hagreed.complete, fun more content hfile => ?_⟩
  · obtain ⟨content, hfile, hload⟩ := hstored i k hi
    obtain ⟨content', hfile', hload'⟩ := hstored j l hj
    obtain rfl := Option.some.inj (hfile.symm.trans hfile')
    exact Except.ok.inj (hload.symm.trans hload')
  · rw [run_append]
    exact (agreed_run hK hagreed more).2 content hfile

/-- Key pairs are byte strings, and protection puts the salt in front. -/
def samplePlatform : Platform where
  Keypair := Bytes
  blake3 _ := ⟨List.replicate 32 0, zeros_length⟩
  toProtobufEncoding := some
  fromProtobufEncoding := some
  protect salt b := some (UInt8.ofNat salt :: b)
  unprotect
    | [] => none
    | _ :: b => some b

lemma samplePlatform_sound : samplePlatform.Sound where
  decodes _ _ h := h.symm
  unprotects salt b c h := by
    obtain rfl := Option.some.inj h
    rfl
  nonempty salt b c h := by
    obtain rfl := Option.some.inj h
    simp

/-- Both find no identity; the second takes the lock and creates one, the first loads it. -/
def race : List (ℕ × Move samplePlatform) :=
  [(0, .go), (1, .go), (0, .go), (1, .go), (1, .go), (0, .go), (1, .go), (1, .go),
    (1, .generate ([7] : Bytes) 3), (1, .go), (1, .write 5), (1, .write 100), (1, .go), (1, .go),
    (0, .go), (1, .go), (0, .go), (0, .go), (0, .go), (0, .go), (0, .go)]

def emptyDirectory : Directory := ⟨none, false, fun _ => none⟩

def raced : World samplePlatform ℕ :=
  run (World.step "identity.dat" id) (.start emptyDirectory) race

theorem race_agrees : ∃ k, raced.calls 0 = .returned (.ok k) ∧ raced.calls 1 = .returned (.ok k) ∧
    Stored raced.directory k := by
  have hfirst : raced.calls 0 = .returned (.ok ([7] : Bytes)) := rfl
  have hsecond : raced.calls 1 = .returned (.ok ([7] : Bytes)) := rfl
  obtain ⟨hstored, -⟩ := creation_agrees samplePlatform_sound id "identity.dat"
    (show Complete samplePlatform emptyDirectory from nofun) race
  exact ⟨_, hfirst, hsecond, hstored 0 _ hfirst⟩

end Protonet.IdentityCreation
