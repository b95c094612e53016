import Protonet.Provenance

/-!
# Agreement between nodes

Any number of nodes, each with an identity and a store of its own. Whoever delivers their messages
may alter, repeat, withhold and invent them, but does not sign in the name of a node.
-/
namespace Protonet.Agreement
open StepRun Postcard Record RecordIdentity Database Worker RecordCreation StoreRows StoreIntegrity
  Provenance
open IdentityReset (counter)

structure World (K : Primitives) (S : Signer K) (ι : Type*) where
  nodes : ι → Node K S
  /-- What the signers of all nodes have made, in order. -/
  created : List FlaggedFileRecord

variable {K : Primitives} {S : Signer K} {ι : Type*}

def World.start (inMemory : ι → Bool) (keypair : ι → S.Keypair) (boot : ι → Boot) : World K S ι :=
  ⟨fun i => .start (inMemory i) (keypair i) (boot i), []⟩

def World.step [DecidableEq ι] (w : World K S ι) (e : ι × Turn S) : World K S ι where
  nodes := Function.update w.nodes e.1 ((w.nodes e.1).step e.2)
  created := w.created ++ (made (w.nodes e.1) e.2).toList

def adopted : Turn S → Option S.Keypair
  | .resetIdentity keypair _ => some keypair
  | .restart _ _ keypair _ => some keypair
  | _ => none

/-- Nobody goes by this identity or has gone by it and signed something. -/
structure World.Fresh (w : World K S ι) (peer : PeerId) : Prop where
  unused : ∀ i, peerId (w.nodes i).keypair ≠ peer
  unsigned : ∀ r ∈ w.created, r.originPeerId.1 ≠ peer.toBytes

/-- A record in the name of one of these identities carries an id that its owner has signed. -/
def World.Vouched (H : Set PeerId) (w : World K S ι) (r : FlaggedFileRecord) : Prop :=
  ∀ peer ∈ H, r.originPeerId.1 = peer.toBytes →
    ∃ m ∈ w.created, m.originPeerId.1 = r.originPeerId.1 ∧ m.recordId = r.recordId

/-- Key pairs are drawn anew, unless an engine goes on with its own and with its counters, and
their signatures are not forged. -/
structure Fair (H : Set PeerId) (w : World K S ι) (e : ι × Turn S) : Prop where
  honest : ∀ keypair ∈ adopted e.2, peerId keypair ∈ H
  identity : ∀ keypair ∈ adopted e.2, w.Fresh (peerId keypair) ∨
    peerId keypair = peerId (w.nodes e.1).keypair ∧ clears e.2 = false
  unforged : ∀ r ∈ received e.2, Genuine K r → w.Vouched H r

/-- All that the hash is asked to keep apart. -/
def World.preimages (w : World K S ι) : Set Bytes :=
  {b | ∃ r : FlaggedFileRecord, (r ∈ w.created ∨ ∃ i, r ∈ (w.nodes i).stored) ∧ r.preimage = b}

/-- Every record in the name of a node was vouched for by it, and each node counts its own. -/
structure Agreed (H : Set PeerId) (w : World K S ι) : Prop where
  sound : ∀ i, Sound (w.nodes i)
  honest : ∀ i, peerId (w.nodes i).keypair ∈ H
  apart : ∀ i j, peerId (w.nodes i).keypair = peerId (w.nodes j).keypair → i = j
  genuine : ∀ r ∈ w.created, Genuine K r
  named : ∀ r ∈ w.created, ∃ peer ∈ H, r.originPeerId.1 = peer.toBytes
  increasing : w.created.Pairwise fun r r' =>
    r.originPeerId.1 = r'.originPeerId.1 → r.sequence.toNat < r'.sequence.toNat
  counted : ∀ i, ∀ r ∈ w.created, r.originPeerId.1 = (peerId (w.nodes i).keypair).toBytes →
    r.sequence.toNat ≤ counter (w.nodes i).pipeline.db (peerId (w.nodes i).keypair)
  vouched : ∀ i, Carries (fun r => Genuine K r ∧ w.Vouched H r) (w.nodes i)

variable {H : Set PeerId} {w w' : World K S ι} {r m : FlaggedFileRecord} {row row' : Row} {i j : ι}

lemma World.Vouched.mono (h : w.Vouched H r) (hcreated : w.created ⊆ w'.created) :
    w'.Vouched H r := by
  intro peer hpeer horigin
  obtain ⟨m, hm, heq⟩ := h peer hpeer horigin
  exact ⟨m, hcreated hm, heq⟩

lemma keypair_step (s : Node K S) (turn : Turn S) :
    (s.step turn).keypair = (adopted turn).getD s.keypair := by
  have ht := takes_step s turn
  generalize s.step turn = t at ht ⊢
  cases ht with
  | _ => rfl

lemma clears_of_adopted {turn : Turn S} (h : adopted turn = none) : clears turn = false := by
  cases turn with
  | resetIdentity => cases h
  | restart => cases h
  | _ => rfl

lemma made_of_adopted {s : Node K S} {turn : Turn S} {keypair : S.Keypair}
    (h : adopted turn = some keypair) : made s turn = none := by
  cases turn with
  | sign => cases h
  | _ => rfl

lemma agreed_start (inMemory : ι → Bool) {keypair : ι → S.Keypair} (boot : ι → Boot)
    (hhonest : ∀ i, peerId (keypair i) ∈ H)
    (hapart : Function.Injective fun i => peerId (keypair i)) :
    Agreed H (.start inMemory keypair boot : World K S ι) where
  sound _ := start_sound _ _ _
  honest := hhonest
  apart _ _ h := hapart h
  genuine := nofun
  named := nofun
  increasing := .nil
  counted := nofun
  vouched _ := ⟨nofun, nofun, nofun, nofun⟩

section Step
variable [DecidableEq ι] {e : ι × Turn S}

lemma nodes_step_self : (w.step e).nodes e.1 = (w.nodes e.1).step e.2 := Function.update_self ..

lemma nodes_step_of_ne (h : i ≠ e.1) : (w.step e).nodes i = w.nodes i :=
  Function.update_of_ne h ..

lemma created_step : w.created ⊆ (w.step e).created := List.subset_append_left _ _

/-- The identity of the acting node afterwards: its own, with counters that only went up, or one
that nobody has used. -/
lemma identity_step (hfair : Fair H w e) :
    (peerId ((w.step e).nodes e.1).keypair = peerId (w.nodes e.1).keypair ∧ ∀ peer,
        counter (w.nodes e.1).pipeline.db peer ≤ counter ((w.step e).nodes e.1).pipeline.db peer) ∨
      w.Fresh (peerId ((w.step e).nodes e.1).keypair) ∧ made (w.nodes e.1) e.2 = none := by
  rw [nodes_step_self, keypair_step]
  rcases hadopted : adopted e.2 with _ | keypair
  · exact .inl ⟨rfl, counter_step e.2 (clears_of_adopted hadopted)⟩
  · rcases hfair.identity keypair hadopted with hfresh | ⟨hsame, hkept⟩
    · exact .inr ⟨hfresh, made_of_adopted hadopted⟩
    · exact .inl ⟨hsame, counter_step e.2 hkept⟩

lemma Agreed.made_eq (hS : S.Lawful) (h : Agreed H w) (hm : m ∈ made (w.nodes e.1) e.2) :
    m.originPeerId.1 = (peerId (w.nodes e.1).keypair).toBytes ∧ Genuine K m ∧
      m.sequence.toNat ≤ counter ((w.step e).nodes e.1).pipeline.db (peerId (w.nodes e.1).keypair) ∧
      ∀ r ∈ w.created, r.originPeerId.1 = m.originPeerId.1 →
        r.sequence.toNat < m.sequence.toNat := by
  obtain ⟨horigin, hgenuine, hnext, hafter⟩ := Provenance.made_eq hS hm
  refine ⟨horigin, hgenuine, by rw [nodes_step_self, hafter], fun r hr hsame => ?_⟩
  rw [hnext]
  exact Nat.lt_succ_of_le (h.counted e.1 r hr (hsame.trans horigin))

lemma Agreed.counted_step (hS : S.Lawful) (h : Agreed H w) (hfair : Fair H w e) :
    ∀ i, ∀ r ∈ (w.step e).created,
      r.originPeerId.1 = (peerId ((w.step e).nodes i).keypair).toBytes →
      r.sequence.toNat ≤
        counter ((w.step e).nodes i).pipeline.db (peerId ((w.step e).nodes i).keypair) := by
  intro i r hr horigin
  have hinjective : ∀ {peer peer' : PeerId}, peer.toBytes = peer'.toBytes → peer = peer' := by
    rintro ⟨_⟩ ⟨_⟩ rfl
    rfl
  by_cases hi : i = e.1
  · subst hi
    rcases identity_step hfair with ⟨hsame, hcounter⟩ | ⟨hfresh, hnone⟩
    · rw [hsame] at horigin ⊢
      rcases List.mem_append.mp hr with hold | hnew
      · exact (h.counted _ r hold horigin).trans (hcounter _)
      · exact (h.made_eq hS (Option.mem_toList.mp hnew)).2.2.1
    · rcases List.mem_append.mp hr with hold | hnew
      · exact absurd horigin (hfresh.unsigned r hold)
      · rw [hnone] at hnew
        cases hnew
  · rw [nodes_step_of_ne hi] at horigin ⊢
    rcases List.mem_append.mp hr with hold | hnew
    · exact h.counted i r hold horigin
    · obtain ⟨hmade, -⟩ := h.made_eq hS (Option.mem_toList.mp hnew)
      exact absurd (h.apart i e.1 (hinjective (horigin.symm.trans hmade))) hi

lemma Agreed.apart_step (h : Agreed H w) (hfair : Fair H w e) (i j : ι)
    (heq : peerId ((w.step e).nodes i).keypair = peerId ((w.step e).nodes j).keypair) : i = j := by
  have hother : ∀ k, k ≠ e.1 → peerId ((w.step e).nodes k).keypair ≠
      peerId ((w.step e).nodes e.1).keypair := by
    intro k hk hsame
    rw [nodes_step_of_ne hk] at hsame
    rcases identity_step hfair with ⟨hown, -⟩ | ⟨hfresh, -⟩
    · exact hk (h.apart k e.1 (hsame.trans hown))
    · exact hfresh.unused k hsame
  by_cases hi : i = e.1
  · by_cases hj : j = e.1
    · rw [hi, hj]
    · exact absurd (hi ▸ heq.symm) (hother j hj)
  · by_cases hj : j = e.1
    · exact absurd (hj ▸ heq) (hother i hi)
    · rw [nodes_step_of_ne hi, nodes_step_of_ne hj] at heq
      exact h.apart i j heq

lemma agreed_step (hS : S.Lawful) (h : Agreed H w) (hfair : Fair H w e) :
    Agreed H (w.step e) where
  sound i := by
    by_cases hi : i = e.1
    · rw [hi, nodes_step_self]
      exact (keeps_step hS (h.sound e.1) e.2).sound
    · rw [nodes_step_of_ne hi]
      exact h.sound i
  honest i := by
    by_cases hi : i = e.1
    · rw [hi, nodes_step_self, keypair_step]
      rcases hadopted : adopted e.2 with _ | keypair
      · exact h.honest e.1
      · exact hfair.honest keypair hadopted
    · rw [nodes_step_of_ne hi]
      exact h.honest i
  apart := h.apart_step hfair
  genuine r hr := (List.mem_append.mp hr).elim (h.genuine r) fun hnew =>
    (h.made_eq hS (Option.mem_toList.mp hnew)).2.1
  named r hr := (List.mem_append.mp hr).elim (h.named r) fun hnew =>
    ⟨_, h.honest e.1, (h.made_eq hS (Option.mem_toList.mp hnew)).1⟩
  increasing := by
    refine List.pairwise_append.mpr ⟨h.increasing, ?_, fun r hr m hm => ?_⟩
    · cases made (w.nodes e.1) e.2 <;> simp
    · exact (h.made_eq hS (Option.mem_toList.mp hm)).2.2.2 r hr
  counted := h.counted_step hS hfair
  vouched i := by
    have hmono : Carries (fun r => Genuine K r ∧ (w.step e).Vouched H r) (w.nodes i) :=
      (h.vouched i).mono fun r hr => ⟨hr.1, hr.2.mono created_step⟩
    by_cases hi : i = e.1
    · subst hi
      rw [nodes_step_self]
      refine carries_step hmono e.2 (fun r hr hgenuine => ?_) fun m hm => ?_
      · exact ⟨hgenuine, (hfair.unforged r hr hgenuine).mono created_step⟩
      · refine ⟨(h.made_eq hS hm).2.1, fun peer _ _ => ⟨m, ?_, rfl, rfl⟩⟩
        exact List.mem_append_right _ (Option.mem_toList.mpr hm)
    · rwa [nodes_step_of_ne hi]

lemma agreed_run (hS : S.Lawful) (h : Agreed H w) {turns : List (ι × Turn S)}
    (hfair : Along World.step (Fair H) w turns) : Agreed H (run World.step w turns) :=
  run_invariant h hfair fun _ _ h hfair => agreed_step hS h hfair

end Step

/-- A row with the id of a record that a node has made is that of this record, up to the
signature. -/
lemma Agreed.row_of_id (h : Agreed H w) (hcf : CollisionFree K w.preimages) (hm : m ∈ w.created)
    (hrow : row ∈ (w.nodes i).pipeline.db.records.rows) (hid : row.recordId = m.recordId) :
    ∃ signature, toRow { m with signature } = .ok row := by
  obtain ⟨r, hr, hgenuine, hto⟩ := (h.sound i).store.rows row hrow
  have hrid : m.recordId = r.recordId := hid.symm.trans (toRow_fields hto).1
  have hpair : CollisionFree K {m.preimage, r.preimage} := by
    refine Set.InjOn.mono ?_ hcf
    rintro b (rfl | rfl)
    · exact ⟨m, .inl hm, rfl⟩
    · exact ⟨r, .inr ⟨i, hr⟩, rfl⟩
  have hunsigned := unsigned_eq_of_recordId hpair (h.genuine m hm).id hgenuine.id hrid
  refine ⟨r.signature, ?_⟩
  rw [← eq_of_unsigned hunsigned hrid.symm]
  exact hto

lemma Agreed.row_created (h : Agreed H w) (hcf : CollisionFree K w.preimages)
    (hrow : row ∈ (w.nodes i).pipeline.db.records.rows) {peer : PeerId} (hpeer : peer ∈ H)
    (horigin : row.originPeerId = peer.toBytes) :
    ∃ m ∈ w.created, ∃ signature, toRow { m with signature } = .ok row := by
  obtain ⟨r, hr, -, hto⟩ := (h.sound i).store.rows row hrow
  obtain ⟨hid, hrorigin, -⟩ := toRow_fields hto
  obtain ⟨m, hm, -, hmid⟩ :=
    ((h.vouched i).stored r hr).2 peer hpeer (hrorigin.symm.trans horigin)
  exact ⟨m, hm, h.row_of_id hcf hm hrow (hid.trans hmid.symm)⟩

/-- A node makes one record for each of its sequence numbers. -/
lemma Agreed.unique (h : Agreed H w) (hr : r ∈ w.created) (hm : m ∈ w.created)
    (horigin : m.originPeerId.1 = r.originPeerId.1) (hsequence : m.sequence = r.sequence) :
    m = r := by
  by_contra hne
  have : Std.Symm fun r m : FlaggedFileRecord =>
      r.originPeerId.1 = m.originPeerId.1 → r.sequence ≠ m.sequence :=
    ⟨fun _ _ hrm hmr hsame => hrm hmr.symm hsame.symm⟩
  have hdistinct : w.created.Pairwise fun r m =>
      r.originPeerId.1 = m.originPeerId.1 → r.sequence ≠ m.sequence :=
    h.increasing.imp fun hlt hsame hsequence => (hlt hsame).ne (congrArg UInt64.toNat hsequence)
  exact hdistinct.forall hm hr hne horigin hsequence

lemma toRow_signature {signature : VecU8} (h : toRow { m with signature } = .ok row) :
    row.recordId = m.recordId ∧ row.originPeerId = m.originPeerId.1 ∧
      row.sequence.toInt = m.sequence.toNat := by
  obtain ⟨hid, horigin, hsequence, -⟩ := toRow_fields h
  exact ⟨hid, horigin, hsequence⟩

lemma Agreed.unique_of_rows (h : Agreed H w) (hr : r ∈ w.created) (hm : m ∈ w.created)
    (signature signature' : VecU8) (hto : toRow { r with signature } = .ok row)
    (hto' : toRow { m with signature := signature' } = .ok row')
    (hkey : row'.originSequence = row.originSequence) : m = r := by
  obtain ⟨horigin, hsequence⟩ := Prod.mk.inj hkey
  obtain ⟨-, hrorigin, hrsequence⟩ := toRow_signature hto
  obtain ⟨-, hmorigin, hmsequence⟩ := toRow_signature hto'
  refine h.unique hr hm (hmorigin.symm.trans (horigin.trans hrorigin)) (UInt64.toNat_inj.mp ?_)
  rw [hsequence, hrsequence] at hmsequence
  exact_mod_cast hmsequence.symm

def sampleKeys (i : Bool) : sampleSigner.Keypair := if i then (2 : UInt8) else (1 : UInt8)

def sampleStart : World samplePrimitives sampleSigner Bool :=
  .start (fun _ => false) sampleKeys fun _ => sampleBoot

def sampleSign : Turn sampleSigner := .sign 0 Queries.zeroId Queries.zeroId 1 none

def sampleMade : FlaggedFileRecord :=
  (made (sampleStart.nodes false) sampleSign).getD (sampleRecord 1 1 1 0 1000)

/-- The first node stores a record of its own, and a peer gossips it to the second one. -/
def sampleTurns : List (Bool × Turn sampleSigner) :=
  [(false, sampleSign), (false, .deliver (.still 0 0)),
    (false, .move (.still 0 0) .take isDirect_take),
    (false, .move (.still 0 0) (.insert DatabaseBatch.sampleReadings) (isDirect_insert _)),
    (true, .move (.still 0 0) (.swarm (.connectionEstablished Blocking.samplePeer
      (.listener [.ip4 ⟨1, 2, 3, 4⟩, .tcp 4001]) 2 1) rfl) rfl),
    (true, .move (.still 0 0) (.swarm (.gossip Blocking.samplePeer sampleMade.recordId
      sampleMade.encode) rfl) rfl),
    (true, .move (.still 0 0) .take isDirect_take),
    (true, .move (.still 0 0) (.insert DatabaseBatch.sampleReadings) (isDirect_insert _))]

def sampleAfter : World samplePrimitives sampleSigner Bool := run World.step sampleStart sampleTurns

def sampleHonest : Set PeerId := {⟨[1]⟩, ⟨[2]⟩}

lemma fair_quiet {w : World K S ι} {e : ι × Turn S} (hadopted : adopted e.2 = none)
    (hreceived : received e.2 = []) : Fair H w e where
  honest _ hk := nomatch hadopted.symm.trans hk
  identity _ hk := nomatch hadopted.symm.trans hk
  unforged _ hr := absurd (hreceived ▸ hr) List.not_mem_nil

lemma sample_honest : ∀ i, peerId (sampleKeys i) ∈ sampleHonest := by
  rintro (_ | _)
  · exact .inl rfl
  · exact .inr rfl

lemma sample_apart : Function.Injective fun i => peerId (sampleKeys i) := by
  intro i j
  revert i j
  decide

lemma sample_fair : Along World.step (Fair sampleHonest) sampleStart sampleTurns := by
  refine ⟨fair_quiet rfl rfl, fair_quiet rfl rfl, fair_quiet rfl rfl, fair_quiet rfl rfl,
    fair_quiet rfl rfl, ⟨nofun, nofun, fun r hr _ peer _ _ => ?_⟩, fair_quiet rfl rfl,
    fair_quiet rfl rfl, trivial⟩
  have hdecode : FlaggedFileRecord.decode sampleMade.encode = .ok sampleMade :=
    decode_encode (by decide +kernel)
  change r ∈ (FlaggedFileRecord.decode sampleMade.encode).toOption.toList at hr
  rw [hdecode] at hr
  rw [List.mem_singleton.mp hr]
  exact ⟨sampleMade, by decide +kernel, rfl, rfl⟩

lemma sample_separated : CollisionFree samplePrimitives sampleAfter.preimages := by
  have hcreated : sampleAfter.created = [sampleMade] := by decide +kernel
  have hstored : ∀ i, (sampleAfter.nodes i).stored = [sampleMade] := by decide +kernel
  refine (Set.injOn_singleton _ sampleMade.preimage).mono ?_
  rintro b ⟨r, hr, rfl⟩
  have hsame : r = sampleMade := by
    rcases hr with hr | ⟨i, hr⟩
    · rw [hcreated] at hr
      exact List.mem_singleton.mp hr
    · rw [hstored i] at hr
      exact List.mem_singleton.mp hr
  rw [hsame]
  rfl

section Results
variable [DecidableEq ι] {inMemory : ι → Bool} {keypair : ι → S.Keypair} {boot : ι → Boot}
  {turns : List (ι × Turn S)}

/-- Whatever the nodes are sent, in any order of their turns, restarts and resets: two stores that
have a row for one origin among the nodes and one sequence number have the same record there, but
for its signature, and its origin made it. -/
theorem stores_agree (hS : S.Lawful) (hhonest : ∀ i, peerId (keypair i) ∈ H)
    (hapart : Function.Injective fun i => peerId (keypair i))
    (hfair : Along World.step (Fair H) (.start inMemory keypair boot : World K S ι) turns)
    (hcf : CollisionFree K (run World.step (.start inMemory keypair boot : World K S ι)
      turns).preimages) :
    let w : World K S ι := run World.step (.start inMemory keypair boot) turns
    ∀ i j, ∀ row ∈ (w.nodes i).pipeline.db.records.rows,
      ∀ row' ∈ (w.nodes j).pipeline.db.records.rows, ∀ peer ∈ H,
      row.originPeerId = peer.toBytes → row'.originSequence = row.originSequence →
      ∃ m ∈ w.created, (∃ signature, toRow { m with signature } = .ok row) ∧
        ∃ signature, toRow { m with signature } = .ok row' := by
  intro w i j row hrow row' hrow' peer hpeer horigin hkey
  have h : Agreed H w := agreed_run hS (agreed_start inMemory boot hhonest hapart) hfair
  obtain ⟨m, hm, signature, hto⟩ := h.row_created hcf hrow hpeer horigin
  obtain ⟨m', hm', signature', hto'⟩ :=
    h.row_created hcf hrow' hpeer ((congrArg Prod.fst hkey).trans horigin)
  obtain rfl := h.unique_of_rows hm hm' signature signature' hto hto' hkey
  exact ⟨m', hm', ⟨signature, hto⟩, signature', hto'⟩

theorem stores_agree_sample :
    (∀ i, (sampleAfter.nodes i).pipeline.db.records.rows.length = 1) ∧
      ∀ row ∈ (sampleAfter.nodes false).pipeline.db.records.rows,
      ∀ row' ∈ (sampleAfter.nodes true).pipeline.db.records.rows,
      row.originPeerId = [1] → row'.originSequence = row.originSequence →
      row'.recordId = row.recordId := by
  refine ⟨by decide +kernel, fun row hrow row' hrow' horigin hkey => ?_⟩
  have hpeer : (⟨[1]⟩ : PeerId) ∈ sampleHonest := .inl rfl
  unfold sampleAfter sampleStart at hrow hrow'
  obtain ⟨m, -, ⟨signature, hto⟩, signature', hto'⟩ := stores_agree sampleSigner_lawful
    sample_honest sample_apart sample_fair sample_separated false true row hrow row' hrow' _ hpeer
    horigin hkey
  rw [(toRow_signature hto).1, (toRow_signature hto').1]

/-- A store turns a record that one of the nodes has made away only if it has the record already:
nobody else can take its id or its place in the sequence of its origin. -/
theorem turned_away_iff (hS : S.Lawful) (hhonest : ∀ i, peerId (keypair i) ∈ H)
    (hapart : Function.Injective fun i => peerId (keypair i))
    (hfair : Along World.step (Fair H) (.start inMemory keypair boot : World K S ι) turns)
    (hcf : CollisionFree K (run World.step (.start inMemory keypair boot : World K S ι)
      turns).preimages) :
    let w : World K S ι := run World.step (.start inMemory keypair boot) turns
    ∀ i, ∀ m ∈ w.created, ∀ row, toRow m = .ok row →
      (((w.nodes i).pipeline.db.records.insertOrIgnore row).1 = false ↔
        ∃ held ∈ (w.nodes i).pipeline.db.records.rows,
          ∃ signature, toRow { m with signature } = .ok held) := by
  intro w i m hm row hto
  have h : Agreed H w := agreed_run hS (agreed_start inMemory boot hhonest hapart) hfair
  obtain ⟨hid, horigin, -⟩ := toRow_fields hto
  constructor
  · intro hrefused
    have hclash : row.recordId ∈ (w.nodes i).pipeline.db.records.rows.map Row.recordId ∨
        row.originSequence ∈ (w.nodes i).pipeline.db.records.rows.map Row.originSequence := by
      by_contra hfree
      rw [(insertOrIgnore_fst _ row).mpr (not_or.mp hfree)] at hrefused
      cases hrefused
    rcases hclash with hclash | hclash
    · obtain ⟨held, hheld, hsame⟩ := List.mem_map.mp hclash
      exact ⟨held, hheld, h.row_of_id hcf hm hheld (hsame.trans hid)⟩
    · obtain ⟨held, hheld, hsame⟩ := List.mem_map.mp hclash
      obtain ⟨horiginHeld, hsequenceHeld⟩ := Prod.mk.inj hsame
      obtain ⟨peer, hpeer, hname⟩ := h.named m hm
      have hpeerHeld : held.originPeerId = peer.toBytes :=
        horiginHeld.trans (horigin.trans hname)
      obtain ⟨m', hm', signature, hto'⟩ := h.row_created hcf hheld hpeer hpeerHeld
      obtain rfl := h.unique_of_rows hm hm' m.signature signature hto hto' hsame
      exact ⟨held, hheld, signature, hto'⟩
  · rintro ⟨held, hheld, signature, hto'⟩
    rw [← Bool.not_eq_true, insertOrIgnore_fst]
    intro hfree
    exact hfree.1 (List.mem_map.mpr ⟨held, hheld, (toRow_signature hto').1.trans hid.symm⟩)

theorem turned_away_sample : ∃ row, toRow sampleMade = .ok row ∧
    ((sampleAfter.nodes true).pipeline.db.records.insertOrIgnore row).1 = false ∧
    ∃ held ∈ (sampleAfter.nodes true).pipeline.db.records.rows,
      ∃ signature, toRow { sampleMade with signature } = .ok held := by
  obtain ⟨row, hto⟩ : ∃ row, toRow sampleMade = .ok row := toRow_ok_iff.mpr (by decide +kernel)
  have hiff := turned_away_iff sampleSigner_lawful sample_honest sample_apart sample_fair
    sample_separated true sampleMade (by decide +kernel) row hto
  have hheld : ((sampleAfter.nodes true).pipeline.db.records.rows.map Row.recordId) =
      [sampleMade.recordId] := by decide +kernel
  have hrefused : ((sampleAfter.nodes true).pipeline.db.records.insertOrIgnore row).1 = false := by
    rw [← Bool.not_eq_true, insertOrIgnore_fst, hheld, (toRow_fields hto).1]
    exact fun h => h.1 (List.mem_singleton_self _)
  exact ⟨row, hto, hrefused, hiff.mp hrefused⟩

end Results

end Protonet.Agreement
