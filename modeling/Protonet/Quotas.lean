import Protonet.RecordIdentity
import Protonet.Removal
import Protonet.StepRun

namespace Protonet.Quotas
open StepRun Record RecordIdentity Database Removal

inductive Operation
  /-- The row of the record at each position goes in at an instant of its own. -/
  | insertBatch (readings : StorageReadings) (storedAt : ℕ → Int64)
      (records : List FlaggedFileRecord)
  | removeBlake3 (hash : Option Hash32)
  | cleanupExpired (now : Int64)

/-- An operation and the clock once it is done. -/
structure Call where
  operation : Operation
  done : Int64

structure History where
  db : SignatureDatabase
  clock : Int64
  /-- When each new row was stored. -/
  stored : List Int64

def History.start (clock : Int64) : History := ⟨.open false, clock, []⟩

def instants (storedAt : ℕ → Int64) (results : List Bool) : List Int64 :=
  (results.zipIdx.filter Prod.fst).map fun e => storedAt e.2

def History.step (s : History) (c : Call) : History :=
  match c.operation with
  | .insertBatch readings storedAt records =>
    match s.db.insertBatch readings records with
    | .ok (results, db) => ⟨db, c.done, s.stored ++ instants storedAt results⟩
    | .error _ => { s with clock := c.done }
  | .removeBlake3 hash =>
    match removeBlake3 s.db hash with
    | .ok (_, db) => { s with db, clock := c.done }
    | .error _ => { s with clock := c.done }
  | .cleanupExpired now => { s with db := (cleanupExpired s.db now).2, clock := c.done }

/-- The clock does not run backwards: each reading is no earlier than the one before, the rows go
in between the check and the charge, and a cleanup is not told a time to come. -/
def Timely (s : History) (c : Call) : Prop :=
  s.clock ≤ c.done ∧
    match c.operation with
    | .insertBatch readings storedAt _ =>
      s.clock ≤ readings.activeAt ∧ readings.activeAt ≤ readings.checkedAt ∧
        (∀ i, readings.checkedAt ≤ storedAt i ∧ storedAt i ≤ readings.chargedAt) ∧
        readings.chargedAt ≤ c.done
    | .removeBlake3 _ => True
    | .cleanupExpired now => now ≤ c.done

def storedOn (s : History) (day : ℤ) : ℕ := s.stored.countP fun t => decide (dayOf t = day)

def charged (db : SignatureDatabase) (day : ℤ) : ℤ := (db.ingestionDaily.lookup day).getD 0

/-- The quotas, and what the counters of today and of the days to come say. -/
structure Within (s : History) : Prop where
  file : s.db.inMemory = false
  active : ∀ now, s.clock ≤ now → s.db.activeCount now ≤ MAX_ACTIVE_RECORDS
  daily : ∀ day, storedOn s day ≤ MAX_DAILY_NEW_RECORDS
  counted : ∀ day, dayOf s.clock ≤ day → storedOn s day ≤ charged s.db day
  ahead : ∀ day, dayOf s.clock < day → charged s.db day = 0

variable {s : History} {db db' : SignatureDatabase} {r : FlaggedFileRecord}
  {rs : List FlaggedFileRecord} {b : Bool} {results : List Bool} {now now' : Int64}
  {readings : StorageReadings} {day : ℤ} {storedAt : ℕ → Int64}

lemma dayOf_mono {t t' : Int64} (h : t ≤ t') : dayOf t ≤ dayOf t' :=
  Int.ediv_le_ediv (by decide) (Int64.le_iff_toInt_le.mp h)

lemma activeCount_le_of_sublist (h : db'.records.rows.Sublist db.records.rows) :
    db'.activeCount now ≤ db.activeCount now := (h.filter _).length_le

lemma activeCount_antitone (h : now ≤ now') : db.activeCount now' ≤ db.activeCount now := by
  unfold SignatureDatabase.activeCount
  rw [← List.countP_eq_length_filter, ← List.countP_eq_length_filter]
  refine List.countP_mono_left fun r _ hr => ?_
  unfold Row.active at hr ⊢
  rw [decide_eq_true_eq] at hr ⊢
  exact Int64.lt_of_le_of_lt h hr

lemma insertOne_daily (h : db.insertOne r = .ok (b, db')) :
    db'.ingestionDaily = db.ingestionDaily := by
  unfold SignatureDatabase.insertOne at h
  split at h
  · cases h
  · split at h
    · obtain ⟨-, rfl⟩ := Prod.mk.inj (Except.ok.inj h)
      rfl
    · obtain ⟨-, rfl⟩ := Prod.mk.inj (Except.ok.inj h)
      rfl

lemma insertOne_active (h : db.insertOne r = .ok (b, db')) :
    db'.activeCount now ≤ db.activeCount now + b.toNat := by
  obtain ⟨row, -, hb, hrecords, -⟩ := insertOne_eq h
  unfold SignatureDatabase.activeCount
  rw [hrecords, insertOrIgnore_rows, ← hb]
  cases b with
  | false => simp
  | true =>
    rw [if_pos rfl, List.filter_append, List.length_append]
    exact Nat.add_le_add_left (List.length_filter_le _ _) _

/-- The loop adds at most as many active rows as it reports, and charges nothing. -/
lemma insertRows_kept (h : db.insertRows rs = .ok (results, db')) :
    db'.ingestionDaily = db.ingestionDaily ∧ db'.inMemory = db.inMemory ∧
      ∀ now, db'.activeCount now ≤ db.activeCount now + results.count true := by
  induction rs generalizing db results with
  | nil =>
    obtain ⟨rfl, rfl⟩ := insertRows_nil h
    exact ⟨rfl, rfl, fun _ => Nat.le_add_right _ _⟩
  | cons r rs ih =>
    obtain ⟨b, mid, tail, hone, hrest, rfl⟩ := insertRows_cons h
    obtain ⟨hdaily, hfile, hactive⟩ := ih hrest
    obtain ⟨-, -, -, -, hmid⟩ := insertOne_eq hone
    refine ⟨hdaily.trans (insertOne_daily hone), hfile.trans hmid, fun now => ?_⟩
    have hfirst := @insertOne_active _ _ _ _ now hone
    have hlast := hactive now
    have hcount : (b :: tail).count true = tail.count true + b.toNat := by cases b <;> simp
    omega

/-- A batch that went through had room for every row it inserted, today and in the table. -/
lemma insertBatch_room (hfile : db.inMemory = false)
    (h : db.insertBatch readings rs = .ok (results, db')) :
    db.activeCount readings.activeAt + results.count true ≤ MAX_ACTIVE_RECORDS ∧
      (charged db (dayOf readings.checkedAt)).toNat + results.count true ≤
        MAX_DAILY_NEW_RECORDS := by
  obtain ⟨db₁, hrows, -⟩ := insertBatch_eq h
  have hlength := insertRows_length hrows
  have hcount : results.count true ≤ min rs.length 100 := by
    refine List.count_le_length.trans (hlength.trans_le ?_)
    rw [List.length_take, min_comm]
  obtain ⟨hactive, -, -, hday⟩ :=
    ensureCapacity_ok_iff.mp (insertBatch_ok_iff.mp ⟨_, h⟩).1 hfile
  exact ⟨by omega, by unfold charged; omega⟩

lemma charged_chargeDay {today count : ℤ} :
    charged (db.chargeDay today count) day = charged db day + if day = today then count else 0 := by
  unfold charged SignatureDatabase.chargeDay
  dsimp only
  by_cases hday : day = today
  · subst hday
    rw [AList.lookup_insert, if_pos rfl]
    cases db.ingestionDaily.lookup day with
    | none => simp
    | some old => simp
  · rw [AList.lookup_insert_ne hday, if_neg hday, add_zero]

/-- A batch charges the day of its last reading with what it inserted. -/
lemma insertBatch_charged (h : db.insertBatch readings rs = .ok (results, db')) :
    charged db' day =
      charged db day + if day = dayOf readings.chargedAt then (results.count true : ℤ) else 0 := by
  unfold SignatureDatabase.insertBatch at h
  rcases hgate : db.ensureCapacity readings rs with e | ⟨⟩
  · simp [hgate] at h
  · rcases hrows : db.insertRows (rs.take 100) with e | ⟨res, db₁⟩
    · simp [hgate, hrows] at h
    · simp only [hgate, hrows] at h
      have hdaily : charged db₁ day = charged db day := by
        unfold charged
        rw [(insertRows_kept hrows).1]
      split_ifs at h with hany
      · obtain ⟨rfl, rfl⟩ := Prod.mk.inj (Except.ok.inj h)
        rw [charged_chargeDay, ← hdaily]
        rfl
      · obtain ⟨rfl, rfl⟩ := Prod.mk.inj (Except.ok.inj h)
        have hzero : res.count true = 0 := List.count_eq_zero.mpr fun hmem =>
          hany (List.any_eq_true.mpr ⟨true, hmem, rfl⟩)
        rw [hdaily, hzero]
        simp

lemma insertBatch_kept (h : db.insertBatch readings rs = .ok (results, db')) :
    db'.inMemory = db.inMemory ∧
      ∀ now, db'.activeCount now ≤ db.activeCount now + results.count true := by
  obtain ⟨db₁, hrows, hrecords, -, hfile⟩ := insertBatch_eq h
  obtain ⟨-, hfile', hactive⟩ := insertRows_kept hrows
  refine ⟨hfile.trans hfile', fun now => ?_⟩
  unfold SignatureDatabase.activeCount at hactive ⊢
  rw [hrecords]
  exact hactive now

lemma length_instants : (instants storedAt results).length = results.count true := by
  unfold instants
  rw [List.length_map, ← List.countP_eq_length_filter]
  have hfst := congrArg (List.countP id) (List.zipIdx_map_fst 0 results)
  rw [List.countP_map] at hfst
  refine hfst.trans (List.countP_congr fun b _ => ?_)
  rw [id, beq_true]

lemma mem_instants {t : Int64} (h : t ∈ instants storedAt results) : ∃ i, storedAt i = t := by
  obtain ⟨e, -, rfl⟩ := List.mem_map.mp h
  exact ⟨e.2, rfl⟩

/-- Rows only come on the days from the check to the charge. -/
lemma countP_instants (htimes : ∀ i, readings.checkedAt ≤ storedAt i ∧
      storedAt i ≤ readings.chargedAt) :
    (instants storedAt results).countP (fun t => decide (dayOf t = day)) ≤
      if dayOf readings.checkedAt ≤ day ∧ day ≤ dayOf readings.chargedAt then results.count true
      else 0 := by
  split_ifs with hday
  · exact List.countP_le_length.trans length_instants.le
  · refine (List.countP_eq_zero.mpr fun t ht => ?_).le
    obtain ⟨i, rfl⟩ := mem_instants ht
    rw [decide_eq_true_eq]
    rintro rfl
    exact hday ⟨dayOf_mono (htimes i).1, dayOf_mono (htimes i).2⟩

lemma Within.pass {done : Int64} (h : Within s) (hdone : s.clock ≤ done)
    (hrows : db.records.rows.Sublist s.db.records.rows) (hfile : db.inMemory = s.db.inMemory)
    (hcharged : ∀ day, dayOf done ≤ day → charged db day = charged s.db day) :
    Within ⟨db, done, s.stored⟩ where
  file := hfile.trans h.file
  active now hnow :=
    (activeCount_le_of_sublist hrows).trans (h.active now (Int64.le_trans hdone hnow))
  daily := h.daily
  counted day hday := by
    rw [hcharged day hday]
    exact h.counted day ((dayOf_mono hdone).trans hday)
  ahead day hday := by
    rw [hcharged day hday.le]
    exact h.ahead day ((dayOf_mono hdone).trans_lt hday)

lemma Within.batch {done : Int64} (h : Within s)
    (hbatch : s.db.insertBatch readings rs = .ok (results, db)) (hactive : s.clock ≤ readings.activeAt)
    (hchecked : readings.activeAt ≤ readings.checkedAt)
    (htimes : ∀ i, readings.checkedAt ≤ storedAt i ∧ storedAt i ≤ readings.chargedAt)
    (hdone : readings.chargedAt ≤ done) :
    Within ⟨db, done, s.stored ++ instants storedAt results⟩ := by
  obtain ⟨hroom, hroom'⟩ := insertBatch_room h.file hbatch
  obtain ⟨hfile, hadded⟩ := insertBatch_kept hbatch
  have hcharge : readings.checkedAt ≤ readings.chargedAt :=
    Int64.le_trans (htimes 0).1 (htimes 0).2
  have hclock : dayOf s.clock ≤ dayOf readings.checkedAt :=
    dayOf_mono (Int64.le_trans hactive hchecked)
  have hdays : dayOf readings.chargedAt ≤ dayOf done := dayOf_mono hdone
  have hstored : ∀ day, storedOn ⟨db, done, s.stored ++ instants storedAt results⟩ day ≤
      storedOn s day + if dayOf readings.checkedAt ≤ day ∧ day ≤ dayOf readings.chargedAt then
        results.count true else 0 := by
    intro day
    unfold storedOn
    rw [List.countP_append]
    exact Nat.add_le_add_left (countP_instants htimes) _
  constructor
  · exact hfile.trans h.file
  · intro now hnow
    have hlater : readings.activeAt ≤ now :=
      Int64.le_trans hchecked (Int64.le_trans hcharge (Int64.le_trans hdone hnow))
    exact (hadded now).trans
      ((Nat.add_le_add_right (activeCount_antitone hlater) _).trans hroom)
  · intro day
    refine (hstored day).trans ?_
    split_ifs with hday
    · rcases hday.1.eq_or_lt with heq | hlt
      · have hcounted := h.counted day (hclock.trans hday.1)
        rw [← heq] at hcounted ⊢
        omega
      · have hcounted := h.counted day (hclock.trans hday.1)
        rw [h.ahead day (hclock.trans_lt hlt)] at hcounted
        omega
    · exact h.daily day
  · intro day hday
    change dayOf done ≤ day at hday
    have hcounted := h.counted day (hclock.trans ((dayOf_mono hcharge).trans (hdays.trans hday)))
    have hnew := hstored day
    rw [insertBatch_charged hbatch]
    split_ifs at hnew ⊢ <;> omega
  · intro day hday
    rw [insertBatch_charged hbatch, h.ahead day
      (hclock.trans_lt ((dayOf_mono hcharge).trans_lt (hdays.trans_lt hday))),
      if_neg (hdays.trans_lt hday).ne']
    rfl

lemma within_start (clock : Int64) : Within (.start clock) where
  file := rfl
  active _ _ := Nat.zero_le _
  daily _ := Nat.zero_le _
  counted _ _ := le_rfl
  ahead _ _ := rfl

lemma within_step {c : Call} (h : Within s) (htimely : Timely s c) : Within (s.step c) := by
  obtain ⟨operation, done⟩ := c
  obtain ⟨hdone, htimes⟩ := htimely
  cases operation with
  | insertBatch readings storedAt records =>
    obtain ⟨hactive, hchecked, hstored, hcharged⟩ := htimes
    unfold History.step
    dsimp only
    rcases hbatch : s.db.insertBatch readings records with e | ⟨results, db⟩
    · exact h.pass hdone (List.Sublist.refl _) rfl fun _ _ => rfl
    · exact h.batch hbatch hactive hchecked hstored hcharged
  | removeBlake3 hash =>
    unfold History.step
    dsimp only
    rcases hremove : removeBlake3 s.db hash with e | ⟨removed, db⟩
    · exact h.pass hdone (List.Sublist.refl _) rfl fun _ _ => rfl
    · obtain ⟨hrows, -, hdaily, hfile⟩ := removeBlake3_eq hremove
      exact h.pass hdone hrows hfile fun day _ => by
        unfold charged
        rw [hdaily]
  | cleanupExpired now =>
    obtain ⟨hrows, -, hdaily, hfile⟩ := @cleanupExpired_eq s.db now
    refine h.pass hdone hrows hfile fun day hday => ?_
    have hkept : ¬ day < dayOf now - 31 := by
      have := dayOf_mono (show now ≤ done from htimes)
      dsimp only at hday
      omega
    unfold charged
    rw [hdaily, lookup_forgetDays, if_neg hkept]

/-- In every run from a new store, no more records are active at any time from its end on than the
quota allows, and no more were stored on any day. -/
theorem quotas_hold {start : Int64} {calls : List Call}
    (h : Along History.step Timely (.start start) calls) :
    (∀ now, (run History.step (.start start) calls).clock ≤ now →
        (run History.step (.start start) calls).db.activeCount now ≤ MAX_ACTIVE_RECORDS) ∧
      ∀ day, storedOn (run History.step (.start start) calls) day ≤ MAX_DAILY_NEW_RECORDS := by
  have hwithin : Within (run History.step (.start start) calls) :=
    run_invariant (within_start start) h fun _ _ => within_step
  exact ⟨hwithin.active, hwithin.daily⟩

/-- A batch that is checked and stored in the last millisecond of a day and charged to the next. -/
def atMidnight : List Call :=
  [⟨.insertBatch ⟨0, 2 ^ 40, 86399999, 86399999, 86400000⟩ (fun _ => 86399999)
    [sampleRecord 1 1 1 0 172800000], 86400000⟩]

def afterMidnight : History := run History.step (.start 0) atMidnight

theorem quotas_hold_midnight : storedOn afterMidnight 0 = 1 ∧ charged afterMidnight.db 1 = 1 ∧
    afterMidnight.db.activeCount 86400000 ≤ MAX_ACTIVE_RECORDS ∧
    storedOn afterMidnight 0 ≤ MAX_DAILY_NEW_RECORDS := by
  have htimely : Along History.step Timely (.start 0) atMidnight :=
    ⟨⟨by decide, by decide, by decide, fun _ =>
      ⟨(by decide : (86399999 : Int64) ≤ 86399999), (by decide : (86399999 : Int64) ≤ 86400000)⟩,
      by decide⟩, trivial⟩
  obtain ⟨hactive, hdaily⟩ := quotas_hold htimely
  exact ⟨by decide +kernel, by decide +kernel, hactive 86400000 (by decide +kernel), hdaily 0⟩

end Protonet.Quotas
