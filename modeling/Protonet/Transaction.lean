import Mathlib

/-!
# Transactions

Statements read and write the tables of a connection. Inside a transaction they work on a copy,
which the commit puts in place and the drop of the transaction forgets. Every statement may fail,
also the one that begins a transaction and the one that commits it.
-/
namespace Protonet.Transaction

variable {σ ε α β : Type}

structure Connection (σ ε : Type) where
  tables : σ
  /-- The copy of an open transaction. -/
  working : Option σ
  /-- What befalls the statements to come. -/
  faults : ℕ → Option ε

def Connection.current (c : Connection σ ε) : σ := c.working.getD c.tables

def Connection.write (c : Connection σ ε) (t : σ) : Connection σ ε :=
  match c.working with
  | none => { c with tables := t }
  | some _ => { c with working := some t }

/-- A computation that ends with a value or an error, and leaves the connection in both cases. -/
def Session (σ ε α : Type) : Type := Connection σ ε → Except ε α × Connection σ ε

/-- An error ends the computation. -/
def Session.andThen (s : Session σ ε α) (k : α → Session σ ε β) : Session σ ε β := fun c =>
  match s c with
  | (.error e, c) => (.error e, c)
  | (.ok a, c) => k a c

instance : Monad (Session σ ε) where
  pure a := fun c => (.ok a, c)
  bind := Session.andThen

def fail (e : ε) : Session σ ε α := fun c => (.error e, c)

/-- A statement does nothing when it fails. -/
def statement (f : σ → α × σ) : Session σ ε α := fun c =>
  let next := { c with faults := fun i => c.faults (i + 1) }
  match c.faults 0 with
  | some e => (.error e, next)
  | none => (.ok (f c.current).1, next.write (f c.current).2)

/-- What the program knows without a statement. -/
def look (f : σ → α) : Session σ ε α := fun c => (.ok (f c.current), c)

def query (f : σ → α) : Session σ ε α := statement fun t => (f t, t)

def execute (f : σ → σ) : Session σ ε Unit := statement fun t => ((), f t)

/-- An error of the body or of the commit drops the transaction. -/
def transaction (body : Session σ ε α) : Session σ ε α := fun c =>
  match execute id c with
  | (.error e, c) => (.error e, c)
  | (.ok (), c) =>
    match body { c with working := some c.current } with
    | (.error e, c) => (.error e, { c with working := none })
    | (.ok a, c) =>
      match execute id c with
      | (.error e, c) => (.error e, { c with working := none })
      | (.ok (), c) => (.ok a, { c with tables := c.current, working := none })

/-- Inside a transaction only the copy changes, and a value comes with a change of it that the
relation allows. -/
def Inside (s : Session σ ε α) (R : σ → α → σ → Prop) : Prop :=
  ∀ c t, c.working = some t → (s c).2.tables = c.tables ∧
    ∃ t', (s c).2.working = some t' ∧ ∀ a, (s c).1 = .ok a → R t a t'

/-- Without an open transaction none stays behind; an error comes with a change that one relation
allows, and a value with a change that the other does. -/
def Outside (s : Session σ ε α) (R : σ → α → σ → Prop) (E : σ → σ → Prop) : Prop :=
  ∀ c, c.working = none → ∃ c', c'.working = none ∧
    ((∃ e, s c = (Except.error e, c') ∧ E c.tables c'.tables) ∨
      ∃ a, s c = (Except.ok a, c') ∧ R c.tables a c'.tables)

variable {s : Session σ ε α} {k : α → Session σ ε β} {R R' : σ → α → σ → Prop}
  {S : α → σ → β → σ → Prop} {Q : σ → β → σ → Prop} {E F : σ → σ → Prop} {f : σ → α × σ}

lemma bind_error {c c' : Connection σ ε} {e : ε} (h : s c = (Except.error e, c')) :
    (s >>= k) c = (Except.error e, c') := by
  change s.andThen k c = _
  rw [Session.andThen, h]

lemma bind_ok {c c' : Connection σ ε} {a : α} (h : s c = (Except.ok a, c')) :
    (s >>= k) c = k a c' := by
  change s.andThen k c = _
  rw [Session.andThen, h]

lemma inside_pure {a : α} (h : ∀ t, R t a t) : Inside (pure a : Session σ ε α) R := by
  intro c t hc
  refine ⟨rfl, t, hc, fun b hb => ?_⟩
  obtain rfl : a = b := Except.ok.inj hb
  exact h t

lemma inside_fail {e : ε} : Inside (fail e : Session σ ε α) R := by
  intro c t hc
  exact ⟨rfl, t, hc, fun b hb => by cases hb⟩

lemma inside_statement (h : ∀ t, R t (f t).1 (f t).2) :
    Inside (statement f : Session σ ε α) R := by
  intro c t hc
  unfold statement
  rcases c.faults 0 with _ | e
  · have hcurrent : c.current = t := by
      rw [Connection.current, hc, Option.getD_some]
    simp only [Connection.write, hc, hcurrent]
    refine ⟨trivial, (f t).2, rfl, fun a ha => ?_⟩
    obtain rfl : (f t).1 = a := Except.ok.inj ha
    exact h t
  · exact ⟨rfl, t, hc, fun a ha => by cases ha⟩

lemma Inside.bind (hs : Inside s R) (hk : ∀ a, Inside (k a) (S a))
    (h : ∀ t a t' b t'', R t a t' → S a t' b t'' → Q t b t'') : Inside (s >>= k) Q := by
  intro c t hc
  obtain ⟨htables, t', ht', ha⟩ := hs c t hc
  rcases hsc : s c with ⟨e | a, c'⟩
  · rw [hsc] at htables ht'
    rw [bind_error hsc]
    exact ⟨htables, t', ht', fun b hb => by cases hb⟩
  · rw [hsc] at htables ht' ha
    rw [bind_ok hsc]
    obtain ⟨htables', t'', ht'', hb⟩ := hk a c' t' ht'
    exact ⟨htables'.trans htables, t'', ht'', fun b hkb => h t a t' b t'' (ha a rfl) (hb b hkb)⟩

/-- What is computed from a value changes nothing. -/
lemma Inside.then_pure {g : α → β} (hs : Inside s R) (h : ∀ t a t', R t a t' → Q t (g a) t') :
    Inside (s >>= fun a => pure (g a)) Q := by
  refine hs.bind (S := fun a t b t' => b = g a ∧ t' = t)
    (fun a => inside_pure fun t => ⟨rfl, rfl⟩) ?_
  rintro t a t' _ _ ha ⟨rfl, rfl⟩
  exact h t a _ ha

lemma inside_query_bind {f : σ → α}
    (hk : ∀ a, Inside (k a) fun t b t' => f t = a → Q t b t') : Inside (query f >>= k) Q := by
  refine Inside.bind (R := fun t a t' => t' = t ∧ f t = a)
    (inside_statement fun t => ⟨rfl, rfl⟩) hk ?_
  rintro t a _ b t'' ⟨rfl, hread⟩ hb
  exact hb hread

lemma Outside.mono (h : Outside s R E) (hR : ∀ t a t', R t a t' → R' t a t')
    (hE : ∀ t t', E t t' → F t t') : Outside s R' F := by
  intro c hc
  obtain ⟨c', hclosed, ⟨e, hsc, he⟩ | ⟨a, hsc, ha⟩⟩ := h c hc
  · exact ⟨c', hclosed, .inl ⟨e, hsc, hE _ _ he⟩⟩
  · exact ⟨c', hclosed, .inr ⟨a, hsc, hR _ _ _ ha⟩⟩

lemma outside_pure {a : α} (h : ∀ t, R t a t) : Outside (pure a : Session σ ε α) R E :=
  fun c hc => ⟨c, hc, .inr ⟨a, rfl, h c.tables⟩⟩

lemma outside_fail {e : ε} (h : ∀ t, E t t) : Outside (fail e : Session σ ε α) R E :=
  fun c hc => ⟨c, hc, .inl ⟨e, rfl, h c.tables⟩⟩

lemma outside_statement (hR : ∀ t, R t (f t).1 (f t).2) (hE : ∀ t, E t t) :
    Outside (statement f : Session σ ε α) R E := by
  intro c hc
  have hcurrent : c.current = c.tables := by
    rw [Connection.current, hc, Option.getD_none]
  unfold statement
  rcases c.faults 0 with _ | e
  · simp only [Connection.write, hc, hcurrent]
    exact ⟨_, rfl, .inr ⟨_, rfl, hR c.tables⟩⟩
  · exact ⟨{ c with faults := fun i => c.faults (i + 1) }, hc, .inl ⟨e, rfl, hE c.tables⟩⟩

lemma Outside.bind (hs : Outside s R E) (hk : ∀ a, Outside (k a) (S a) F)
    (hQ : ∀ t a t' b t'', R t a t' → S a t' b t'' → Q t b t'')
    (hE : ∀ t a t' t'', R t a t' → F t' t'' → E t t'') : Outside (s >>= k) Q E := by
  intro c hc
  obtain ⟨c', hclosed, ⟨e, hsc, he⟩ | ⟨a, hsc, ha⟩⟩ := hs c hc
  · exact ⟨c', hclosed, .inl ⟨e, bind_error hsc, he⟩⟩
  · obtain ⟨c'', hclosed', ⟨e, hkc, he⟩ | ⟨b, hkc, hb⟩⟩ := hk a c' hclosed
    · exact ⟨c'', hclosed', .inl ⟨e, (bind_ok hsc).trans hkc, hE _ _ _ _ ha he⟩⟩
    · exact ⟨c'', hclosed', .inr ⟨b, (bind_ok hsc).trans hkc, hQ _ _ _ _ _ ha hb⟩⟩

lemma Outside.then_pure {g : α → β} (hs : Outside s R E) (h : ∀ t a t', R t a t' → Q t (g a) t') :
    Outside (s >>= fun a => pure (g a)) Q E := by
  refine hs.bind (S := fun a t b t' => b = g a ∧ t' = t) (F := fun _ _ => False)
    (fun a => outside_pure fun t => ⟨rfl, rfl⟩) ?_ fun _ _ _ _ _ hfalse => hfalse.elim
  rintro t a t' _ _ ha ⟨rfl, rfl⟩
  exact h t a _ ha

lemma outside_look_bind {f : σ → α}
    (hk : ∀ a, Outside (k a) (fun t b t' => f t = a → Q t b t') E) :
    Outside (look f >>= k) Q E := by
  intro c hc
  have hcurrent : c.current = c.tables := by
    rw [Connection.current, hc, Option.getD_none]
  obtain ⟨c', hclosed, ⟨e, hkc, he⟩ | ⟨b, hkc, hb⟩⟩ := hk (f c.tables) c hc
  · exact ⟨c', hclosed, .inl ⟨e, by rw [← hkc, ← hcurrent]; rfl, he⟩⟩
  · exact ⟨c', hclosed, .inr ⟨b, by rw [← hkc, ← hcurrent]; rfl, hb rfl⟩⟩

lemma outside_query_bind {f : σ → α}
    (hk : ∀ a, Outside (k a) (fun t b t' => f t = a → Q t b t') E) (hE : ∀ t, E t t) :
    Outside (query f >>= k) Q E := by
  refine Outside.bind (R := fun t a t' => t' = t ∧ f t = a) (F := E)
    (outside_statement (fun t => ⟨rfl, rfl⟩) hE) hk ?_ ?_
  · rintro t a _ b t'' ⟨rfl, hread⟩ hb
    exact hb hread
  · rintro t a _ t'' ⟨rfl, -⟩ he
    exact he

lemma write_current (c : Connection σ ε) : c.write c.current = c := by
  rcases c with ⟨tables, _ | t, faults⟩ <;> rfl

lemma execute_id (c : Connection σ ε) : ∃ outcome, execute id c =
    (outcome, { c with faults := fun i => c.faults (i + 1) }) := by
  unfold execute statement
  rcases c.faults 0 with _ | e
  · exact ⟨_, Prod.ext rfl (write_current { c with faults := fun i => c.faults (i + 1) })⟩
  · exact ⟨_, rfl⟩

/-- A transaction takes place as a whole or not at all. -/
lemma outside_transaction (h : Inside s R) :
    Outside (transaction s) R fun t t' => t' = t := by
  intro c hc
  unfold transaction
  obtain ⟨begun, hbegin⟩ := execute_id c
  rw [hbegin]
  rcases begun with e | ⟨⟩
  · exact ⟨{ c with faults := fun i => c.faults (i + 1) }, hc, .inl ⟨e, rfl, rfl⟩⟩
  · dsimp only
    have hcurrent : Connection.current { c with faults := fun i => c.faults (i + 1) } =
        c.tables := by
      rw [Connection.current, hc, Option.getD_none]
    rw [hcurrent]
    obtain ⟨htables, t', ht', ha⟩ := h
      { c with working := some c.tables, faults := fun i => c.faults (i + 1) } c.tables rfl
    rcases hsc : s { c with working := some c.tables, faults := fun i => c.faults (i + 1) } with
      ⟨e | a, c'⟩
    · rw [hsc] at htables
      exact ⟨_, rfl, .inl ⟨e, rfl, htables⟩⟩
    · rw [hsc] at htables ht' ha
      dsimp only
      obtain ⟨committed, hcommit⟩ := execute_id c'
      rw [hcommit]
      rcases committed with e | ⟨⟩
      · exact ⟨_, rfl, .inl ⟨e, rfl, htables⟩⟩
      · refine ⟨_, rfl, .inr ⟨a, rfl, ?_⟩⟩
        have hlast : Connection.current { c' with faults := fun i => c'.faults (i + 1) } = t' := by
          rw [Connection.current, ht', Option.getD_some]
        rw [hlast]
        exact ha a rfl

end Protonet.Transaction
