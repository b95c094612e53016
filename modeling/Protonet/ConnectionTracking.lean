import Protonet.Blocking

namespace Protonet.ConnectionTracking
open MachineInt StepRun Record Address Connections Swarm RecordIdentity Blocking

/-- A connection and its peer. -/
abbrev Link := ConnectionId × PeerId

def linksOf (links : Finset Link) (p : PeerId) : Finset Link := links.filter fun l => l.2 = p

lemma mem_linksOf {links : Finset Link} {p : PeerId} {l : Link} :
    l ∈ linksOf links p ↔ l ∈ links ∧ l.2 = p := Finset.mem_filter

/-- The manager holds an entry for a peer exactly when the set has a link of it, and counts its
links. -/
structure Matches (m : ConnectionManager) (links : Finset Link) : Prop where
  entry : ∀ p, (m.peers.lookup p).isSome ↔ (linksOf links p).Nonempty
  count : ∀ p, m.count p = (linksOf links p).card

variable {m : ConnectionManager} {links : Finset Link} {peer : PeerId} {id : ConnectionId}

/-- Entries are right as soon as counts are and no entry counts nothing. -/
lemma matches_iff : Matches m links ↔ m.Positive ∧ ∀ p, m.count p = (linksOf links p).card := by
  constructor
  · intro h
    refine ⟨fun p state hs => ?_, h.count⟩
    have hsome : (m.peers.lookup p).isSome := Option.isSome_iff_exists.mpr ⟨state, hs⟩
    have hpos := Finset.card_pos.mpr ((h.entry p).mp hsome)
    rw [← h.count p, ConnectionManager.count, Option.mem_def.mp hs] at hpos
    exact hpos
  · rintro ⟨hpos, hcount⟩
    exact ⟨fun p => by rw [isSome_iff_count hpos, hcount, Finset.card_pos], hcount⟩

lemma matches_empty : Matches .empty ∅ :=
  matches_iff.mpr ⟨empty_positive, fun p => by simp [linksOf, ConnectionManager.count,
    ConnectionManager.empty]⟩

lemma Matches.connected (h : Matches m links) (hid : ∀ p, (id, p) ∉ links)
    (endpoint : ConnectedPoint) (now : ℕ) :
    Matches (m.connected peer endpoint now) (insert (id, peer) links) := by
  obtain ⟨hpos, hcount⟩ := matches_iff.mp h
  refine matches_iff.mpr ⟨connected_positive hpos peer endpoint now, fun p => ?_⟩
  rw [connected_count, hcount]
  unfold linksOf
  rw [Finset.filter_insert]
  by_cases hp : p = peer
  · have hnot : (id, peer) ∉ links.filter fun l => l.2 = p :=
      fun hmem => hid peer (Finset.mem_filter.mp hmem).1
    rw [if_pos hp, if_pos hp.symm, Finset.card_insert_of_notMem hnot]
  · rw [if_neg hp, if_neg (Ne.symm hp)]

lemma linksOf_erase_ne {p : PeerId} (hp : p ≠ peer) :
    linksOf (links.erase (id, peer)) p = linksOf links p := by
  ext l
  simp only [mem_linksOf, Finset.mem_erase]
  constructor
  · rintro ⟨⟨-, hl⟩, hlp⟩
    exact ⟨hl, hlp⟩
  · rintro ⟨hl, rfl⟩
    exact ⟨⟨fun h => hp (by rw [h]), hl⟩, rfl⟩

lemma linksOf_erase (p : PeerId) :
    linksOf (links.erase (id, p)) p = (linksOf links p).erase (id, p) := by
  ext l
  simp only [mem_linksOf, Finset.mem_erase]
  tauto

/-- Closing a link keeps the counts right exactly when the link was in the set, or none of its
peer was. -/
lemma matches_disconnected_iff (h : Matches m links) :
    Matches (m.disconnected peer).2 (links.erase (id, peer)) ↔
      (id, peer) ∈ links ∨ linksOf links peer = ∅ := by
  obtain ⟨hpos, hcount⟩ := matches_iff.mp h
  have hothers : ∀ p ≠ peer, (m.disconnected peer).2.count p =
      (linksOf (links.erase (id, peer)) p).card := by
    intro p hp
    rw [disconnected_count, if_neg hp, hcount, linksOf_erase_ne hp]
  have hself : (m.disconnected peer).2.count peer = (linksOf links peer).card - 1 := by
    rw [disconnected_count, if_pos rfl, hcount]
  have hiff : (linksOf links peer).card - 1 = ((linksOf links peer).erase (id, peer)).card ↔
      (id, peer) ∈ links ∨ linksOf links peer = ∅ := by
    by_cases hmem : (id, peer) ∈ links
    · have hl : (id, peer) ∈ linksOf links peer := mem_linksOf.mpr ⟨hmem, rfl⟩
      simp [Finset.card_erase_of_mem hl, hmem]
    · have hl : (id, peer) ∉ linksOf links peer := fun h => hmem (mem_linksOf.mp h).1
      rw [Finset.erase_eq_of_notMem hl, ← Finset.card_eq_zero]
      simp only [hmem, false_or]
      omega
  rw [matches_iff, ← hiff, ← linksOf_erase, ← hself]
  constructor
  · exact fun h => h.2 peer
  · intro heq
    refine ⟨disconnected_positive hpos peer, fun p => ?_⟩
    by_cases hp : p = peer
    · rw [hp]
      exact heq
    · exact hothers p hp

/-- The actor, the connections seen so far, those still open, and of these the ones that reached
the connection manager. -/
structure Tracked where
  actor : Actor
  seen : Finset ConnectionId
  live : Finset Link
  counted : Finset Link

def Tracked.start (a : Actor) : Tracked := ⟨a, ∅, ∅, ∅⟩

def Tracked.step (K : Primitives) (t : Tracked) (e : Clock × Event) : Tracked :=
  match e.2 with
  | .connectionEstablished peer endpoint id numEstablished =>
    { actor := t.actor.step K e
      seen := insert id t.seen
      live := insert (id, peer) t.live
      counted := if t.actor.admits peer endpoint id numEstablished (e.1.instant 0) then
        insert (id, peer) t.counted else t.counted }
  | .connectionClosed peer id =>
    { actor := t.actor.step K e
      seen := t.seen
      live := t.live.erase (id, peer)
      counted := t.counted.erase (id, peer) }
  | _ => { t with actor := t.actor.step K e }

/-- Each connection is established once and closed at most once, for the same peer. -/
def WellFormed (t : Tracked) (e : Clock × Event) : Prop :=
  match e.2 with
  | .connectionEstablished _ _ id _ => id ∉ t.seen
  | .connectionClosed peer id => (id, peer) ∈ t.live
  | _ => True

instance (t : Tracked) (e : Clock × Event) : Decidable (WellFormed t e) :=
  match e with
  | (c, event) => by
    apply Event.casesOn (motive := fun event => Decidable (WellFormed t (c, event))) event <;>
      intros <;> dsimp only [WellFormed] <;> infer_instance

/-- The event closes the last counted connection of the peer. -/
def LastCloses (t : Tracked) (e : Clock × Event) (p : PeerId) : Prop :=
  ∃ id, e.2 = .connectionClosed p id ∧ linksOf t.counted p = {(id, p)}

def DropsSession (K : Primitives) (t : Tracked) (e : Clock × Event) (p : PeerId) : Prop :=
  (∃ id, e.2 = .connectionClosed p id) ∧ (t.actor.syncSessions.lookup p).isSome ∧
    (t.actor.step K e).syncSessions.lookup p = none

/-- After the step the manager matches the counted connections, and peers were only reported
gone, and their sessions dropped, with their last one. -/
structure Tracks (K : Primitives) (t : Tracked) (e : Clock × Event) : Prop where
  agree : Matches (t.step K e).actor.connections (t.step K e).counted
  reported : ∀ p ∈ departures (t.step K e).actor.outbox, LastCloses t e p
  dropped : ∀ p, DropsSession K t e p → LastCloses t e p

/-- The connection that closes is a counted one, or its peer has none. -/
def ClosesCounted (t : Tracked) (e : Clock × Event) : Prop :=
  match e.2 with
  | .connectionClosed peer id => (id, peer) ∈ t.counted ∨ linksOf t.counted peer = ∅
  | _ => True

structure Agree (t : Tracked) : Prop where
  matched : Matches t.actor.connections t.counted
  known : ∀ l ∈ t.counted, l.1 ∈ t.seen

variable {K : Primitives} {t : Tracked} {e : Clock × Event}

lemma step_actor : (t.step K e).actor = t.actor.step K e := by
  unfold Tracked.step
  split <;> rfl

lemma step_connections : (t.step K e).actor.connections = t.actor.tracked e.1 e.2 := by
  rw [step_actor, step_tracked]

lemma step_departures : departures (t.step K e).actor.outbox = t.actor.departed e.2 := by
  rw [step_actor, step_departed]

lemma Matches.of_count (h : Matches m links) {m' : ConnectionManager} (hpos : m'.Positive)
    (hcount : ∀ p, m'.count p = m.count p) : Matches m' links :=
  matches_iff.mpr ⟨hpos, fun p => (hcount p).trans (h.count p)⟩

/-- Only a close can spoil the match. -/
lemma matches_step_iff (h : Agree t) (hwf : WellFormed t e) :
    Matches (t.step K e).actor.connections (t.step K e).counted ↔ ClosesCounted t e := by
  obtain ⟨c, e⟩ := e
  have hpos := (matches_iff.mp h.matched).1
  rw [step_connections]
  cases e with
  | connectionClosed peer id => exact matches_disconnected_iff h.matched
  | connectionEstablished peer endpoint id n =>
    refine iff_of_true ?_ trivial
    have hnew : ∀ p, (id, p) ∉ t.counted := fun p hp => hwf (h.known _ hp)
    unfold Actor.tracked Tracked.step
    dsimp only
    split_ifs
    · exact h.matched.connected hnew endpoint _
    · exact h.matched
  | identified peer protocolVersion =>
    refine iff_of_true ?_ trivial
    unfold Actor.tracked
    dsimp only
    split_ifs
    · exact h.matched.of_count (setProtocol_positive hpos _ _) (setProtocol_count _ _ · _)
    · exact h.matched
  | pinged peer rtt =>
    exact iff_of_true (h.matched.of_count (setRtt_positive hpos _ _) (setRtt_count _ _ · _)) trivial
  | _ => exact iff_of_true h.matched trivial

lemma agree_step (h : Agree t) (hwf : WellFormed t e) (hc : ClosesCounted t e) :
    Agree (t.step K e) where
  matched := (matches_step_iff h hwf).mpr hc
  known := by
    obtain ⟨c, e⟩ := e
    intro l hl
    cases e with
    | connectionEstablished peer endpoint id n =>
      unfold Tracked.step at hl ⊢
      dsimp only at hl ⊢
      split_ifs at hl
      · rcases Finset.mem_insert.mp hl with rfl | hl
        · exact Finset.mem_insert_self _ _
        · exact Finset.mem_insert_of_mem (h.known l hl)
      · exact Finset.mem_insert_of_mem (h.known l hl)
    | connectionClosed peer id => exact h.known l (Finset.mem_of_mem_erase hl)
    | _ => exact h.known l hl

lemma lastCloses_of_gone (h : Agree t) {c : Clock}
    (hc : ClosesCounted t (c, .connectionClosed peer id))
    (hgone : (t.actor.connections.disconnected peer).1 = true) :
    LastCloses t (c, .connectionClosed peer id) peer := by
  have hone : (linksOf t.counted peer).card = 1 := by
    rw [← h.matched.count, ← disconnected_fst (matches_iff.mp h.matched).1]
    exact hgone
  refine ⟨id, rfl, ?_⟩
  rcases hc with hmem | hnone
  · obtain ⟨l, hl⟩ := Finset.card_eq_one.mp hone
    have hid : (id, peer) ∈ linksOf t.counted peer := mem_linksOf.mpr ⟨hmem, rfl⟩
    rw [hl, Finset.mem_singleton] at hid
    rw [hl, hid]
  · rw [hnone] at hone
    simp at hone

lemma tracks_iff_step (h : Agree t) (hwf : WellFormed t e) : Tracks K t e ↔ ClosesCounted t e := by
  constructor
  · exact fun ht => (matches_step_iff h hwf).mp ht.agree
  · intro hc
    refine ⟨(matches_step_iff h hwf).mpr hc, fun p hp => ?_, fun p hp => ?_⟩
    · rw [step_departures] at hp
      obtain ⟨c, e⟩ := e
      cases e with
      | connectionClosed peer id =>
        unfold Actor.departed at hp
        dsimp only at hp
        split_ifs at hp with hgone
        · obtain rfl := List.mem_singleton.mp hp
          exact lastCloses_of_gone h hc hgone
        · simp at hp
      | _ => simp [Actor.departed] at hp
    · obtain ⟨⟨id, he⟩, hsome, hnone⟩ := hp
      obtain ⟨c, e⟩ := e
      obtain rfl : e = .connectionClosed p id := he
      refine lastCloses_of_gone h hc ?_
      by_contra hstay
      have hsessions : (t.actor.step K (c, .connectionClosed p id)).syncSessions =
          t.actor.syncSessions := by
        change (t.actor.cleared.connectionClosed p id).syncSessions = _
        unfold Actor.connectionClosed
        rcases hd : t.actor.connections.disconnected p with ⟨_ | _, connections⟩
        · have hd' : t.actor.cleared.connections.disconnected p = (false, connections) := hd
          dsimp only
          rw [hd']
          rfl
        · rw [hd] at hstay
          exact absurd rfl hstay
      rw [hsessions] at hnone
      simp [hnone] at hsome

lemma agree_start {a : Actor} (hstart : a.connections = .empty) : Agree (.start a) := by
  refine ⟨?_, by simp [Tracked.start]⟩
  change Matches a.connections ∅
  rw [hstart]
  exact matches_empty

/-- In every run in which each connection is established once and closed at most once, the
connection manager tracks the counted connections exactly when no connection closes that was
refused while its peer has a counted one. -/
theorem connections_tracked_iff {K : Primitives} {a : Actor} {es : List (Clock × Event)}
    (hstart : a.connections = .empty)
    (hwf : Along (Tracked.step K) WellFormed (.start a) es) :
    Along (Tracked.step K) (Tracks K) (.start a) es ↔
      Along (Tracked.step K) ClosesCounted (.start a) es :=
  along_iff_of_invariant (agree_start hstart) hwf (fun _ _ => agree_step) fun _ _ => tracks_iff_step

/-- Two connections of one peer, of which the second loses the tie-break, and some closes. -/
def sampleLinks (closed : List ConnectionId) : List (Clock × Event) :=
  atOnce ([.connectionEstablished samplePeer (.listener [.ip4 ⟨1, 2, 3, 4⟩, .tcp 4001]) 1 1,
    .connectionEstablished samplePeer (.listener [.ip4 ⟨1, 2, 3, 4⟩, .tcp 4002]) 2 2] ++
    closed.map (.connectionClosed samplePeer))

theorem tracked_counted_first :
    Along (Tracked.step samplePrimitives) (Tracks samplePrimitives) (.start sampleNode)
        (sampleLinks [1, 2]) ↔
      Along (Tracked.step samplePrimitives) ClosesCounted (.start sampleNode)
        (sampleLinks [1, 2]) :=
  connections_tracked_iff rfl (by decide +kernel)

/-- The refused connection closes, and the peer is reported gone with its first one still open. -/
theorem refused_close_untracks :
    Along (Tracked.step samplePrimitives) WellFormed (.start sampleNode) (sampleLinks [2]) ∧
      ¬ Along (Tracked.step samplePrimitives) (Tracks samplePrimitives) (.start sampleNode)
        (sampleLinks [2]) := by
  refine ⟨by decide +kernel, fun h => ?_⟩
  have hlast := along_iff.mp h (sampleLinks []) (.still 0 0, .connectionClosed samplePeer 2) [] rfl
  have hgone : samplePeer ∈ departures ((run (Tracked.step samplePrimitives) (.start sampleNode)
      (sampleLinks [])).step samplePrimitives
        (.still 0 0, .connectionClosed samplePeer 2)).actor.outbox := by
    decide +kernel
  obtain ⟨id, he, hlinks⟩ := hlast.reported samplePeer hgone
  have hone : linksOf (run (Tracked.step samplePrimitives) (.start sampleNode)
      (sampleLinks [])).counted samplePeer = {(1, samplePeer)} := by
    decide +kernel
  rw [hone, Finset.singleton_inj, Prod.mk.injEq] at hlinks
  obtain ⟨-, rfl⟩ : samplePeer = samplePeer ∧ 2 = id := by simpa using he
  exact absurd hlinks.1 (by decide)

end Protonet.ConnectionTracking
