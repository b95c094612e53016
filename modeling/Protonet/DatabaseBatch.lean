import Protonet.Database
import Protonet.RecordIdentity

namespace Protonet.DatabaseBatch
open Record Database RecordIdentity

/-- What the writer reports of one record. -/
inductive Outcome
  | stored
  | duplicate
  | failed
  deriving DecidableEq

def Outcome.ofInserted (inserted : Bool) : Outcome := if inserted then .stored else .duplicate

lemma ofInserted_ne_failed (b : Bool) : Outcome.ofInserted b ≠ .failed := by
  cases b <;> simp [Outcome.ofInserted]

/-- A batch as the writer builds it, with what the store reads while inserting it. -/
structure Batch where
  readings : StorageReadings
  records : List FlaggedFileRecord
  nonempty : 1 ≤ records.length
  bounded : records.length ≤ 100

def report (db : SignatureDatabase) (b : Batch) : List Outcome × SignatureDatabase :=
  match db.insertBatch b.readings b.records with
  | .ok (results, db') => (results.map Outcome.ofInserted, db')
  | .error _ => (b.records.map fun _ => .failed, db)

def reports (db : SignatureDatabase) : List Batch → List Outcome × SignatureDatabase
  | [] => ([], db)
  | b :: bs =>
    let first := report db b
    let rest := reports first.2 bs
    (first.1 ++ rest.1, rest.2)

def sequenceOf (bs : List Batch) : List FlaggedFileRecord := bs.flatMap Batch.records

def SameTables (db db' : SignatureDatabase) : Prop :=
  db.records = db'.records ∧ db.originSequences = db'.originSequences

lemma insertOne_congr {db db' : SignatureDatabase} (h : SameTables db db')
    {r : FlaggedFileRecord} {b : Bool} {out : SignatureDatabase}
    (hr : db.insertOne r = .ok (b, out)) :
    ∃ out', db'.insertOne r = .ok (b, out') ∧ SameTables out out' := by
  obtain ⟨h₁, h₂⟩ := h
  unfold SignatureDatabase.insertOne at hr ⊢
  cases hrow : toRow r with
  | error e => simp [hrow] at hr
  | ok row =>
    rw [← h₁]
    rcases ht : db.records.insertOrIgnore row with ⟨inserted, t⟩
    cases inserted with
    | false =>
      simp only [hrow, ht, Except.ok.injEq, Prod.mk.injEq] at hr
      obtain ⟨rfl, rfl⟩ := hr
      exact ⟨db', by simp [ht], h₁, h₂⟩
    | true =>
      simp only [hrow, ht, Except.ok.injEq, Prod.mk.injEq] at hr
      obtain ⟨rfl, rfl⟩ := hr
      exact ⟨{ db' with records := t }.raiseHighest row.originPeerId row.sequence, by simp [ht],
        rfl, by simp [SignatureDatabase.raiseHighest, h₂]⟩

lemma insertRows_congr {db db' : SignatureDatabase} (h : SameTables db db')
    {rs : List FlaggedFileRecord} {results : List Bool} {out : SignatureDatabase}
    (hr : db.insertRows rs = .ok (results, out)) :
    ∃ out', db'.insertRows rs = .ok (results, out') ∧ SameTables out out' := by
  induction rs generalizing db db' results with
  | nil =>
    obtain ⟨rfl, rfl⟩ := insertRows_nil hr
    exact ⟨db', rfl, h⟩
  | cons r rs ih =>
    obtain ⟨b, mid, tail, hone, hrest, rfl⟩ := insertRows_cons hr
    obtain ⟨mid', hone', hmid⟩ := insertOne_congr h hone
    obtain ⟨last', hrest', hlast⟩ := ih hmid hrest
    exact ⟨last', by simp [SignatureDatabase.insertRows, hone', hrest'], hlast⟩

lemma insertRows_append {db mid out : SignatureDatabase} {xs ys : List FlaggedFileRecord}
    {as bs : List Bool} (hx : db.insertRows xs = .ok (as, mid))
    (hy : mid.insertRows ys = .ok (bs, out)) :
    db.insertRows (xs ++ ys) = .ok (as ++ bs, out) := by
  induction xs generalizing db as with
  | nil =>
    obtain ⟨rfl, rfl⟩ := insertRows_nil hx
    exact hy
  | cons x xs ih =>
    obtain ⟨b, next, tail, hone, hrest, rfl⟩ := insertRows_cons hx
    simp [SignatureDatabase.insertRows, hone, ih hrest]

/-- A batch is reported as failed as a whole, and then leaves no trace, unless the gate lets it in
and each of its records fits the columns. -/
lemma report_refused {db : SignatureDatabase} {b : Batch}
    (h : ¬ (db.ensureCapacity b.readings b.records = .ok () ∧ ∀ r ∈ b.records, Storable r)) :
    report db b = (b.records.map fun _ => .failed, db) := by
  unfold report
  cases hi : db.insertBatch b.readings b.records with
  | error e => rfl
  | ok out =>
    refine absurd ?_ h
    have hok := insertBatch_ok_iff.mp ⟨out, hi⟩
    rwa [List.take_of_length_le b.bounded] at hok

lemma report_admitted {db : SignatureDatabase} {b : Batch}
    (hgate : db.ensureCapacity b.readings b.records = .ok ())
    (hfit : ∀ r ∈ b.records, Storable r) :
    ∃ results out, db.insertRows b.records = .ok (results, out) ∧
      (report db b).1 = results.map Outcome.ofInserted ∧ SameTables out (report db b).2 := by
  have htake := List.take_of_length_le b.bounded
  obtain ⟨⟨results, db'⟩, hi⟩ := insertBatch_ok_iff.mpr ⟨hgate, by rwa [htake]⟩
  obtain ⟨out, hrows, hrec, hseq, -⟩ := insertBatch_eq hi
  rw [htake] at hrows
  refine ⟨results, out, hrows, ?_, ?_⟩
  · simp [report, hi]
  · simp [report, hi, SameTables, hrec, hseq]

/-- The records a report does not list as failed. -/
def kept (records : List FlaggedFileRecord) (outcomes : List Outcome) : List FlaggedFileRecord :=
  ((records.zip outcomes).filter fun p => p.2 ≠ .failed).map Prod.fst

def succeeded (outcomes : List Outcome) : List Outcome := outcomes.filter (· ≠ .failed)

def failures (outcomes : List Outcome) : List Bool := outcomes.map (· = .failed)

lemma kept_append {xs ys : List FlaggedFileRecord} {as bs : List Outcome}
    (h : xs.length = as.length) : kept (xs ++ ys) (as ++ bs) = kept xs as ++ kept ys bs := by
  simp [kept, List.zip_append h]

lemma kept_failed (rs : List FlaggedFileRecord) : kept rs (rs.map fun _ => .failed) = [] := by
  induction rs with
  | nil => rfl
  | cons r rs ih => simpa [kept] using ih

lemma kept_ofInserted {rs : List FlaggedFileRecord} {results : List Bool}
    (h : results.length = rs.length) : kept rs (results.map Outcome.ofInserted) = rs := by
  induction rs generalizing results with
  | nil => simp [kept]
  | cons r rs ih =>
    cases results with
    | nil => simp at h
    | cons b results =>
      have hl : results.length = rs.length := by simpa using h
      have hi := ih hl
      simp only [kept, List.map_cons, List.zip_cons_cons] at hi ⊢
      rw [List.filter_cons_of_pos (by simpa using ofInserted_ne_failed b), List.map_cons, hi]

lemma kept_congr {rs : List FlaggedFileRecord} {as bs : List Outcome}
    (h : failures as = failures bs) : kept rs as = kept rs bs := by
  induction rs generalizing as bs with
  | nil => simp [kept]
  | cons r rs ih =>
    cases as with
    | nil =>
      cases bs with
      | nil => rfl
      | cons b bs => simp [failures] at h
    | cons a as =>
      cases bs with
      | nil => simp [failures] at h
      | cons b bs =>
        simp only [failures, List.map_cons, List.cons.injEq, decide_eq_decide] at h
        have hi : kept rs as = kept rs bs := ih h.2
        unfold kept at hi ⊢
        by_cases hb : b = .failed
        · rw [List.zip_cons_cons, List.zip_cons_cons, List.filter_cons_of_neg (by simp [h.1, hb]),
            List.filter_cons_of_neg (by simp [hb]), hi]
        · rw [List.zip_cons_cons, List.zip_cons_cons, List.filter_cons_of_pos (by simp [h.1, hb]),
            List.filter_cons_of_pos (by simp [hb]), List.map_cons, List.map_cons, hi]

/-- A report is its failures and, in between, what succeeded. -/
lemma eq_of_failures {as bs : List Outcome} (h : failures as = failures bs)
    (hs : succeeded as = succeeded bs) : as = bs := by
  induction as generalizing bs with
  | nil =>
    cases bs with
    | nil => rfl
    | cons b bs => simp [failures] at h
  | cons a as ih =>
    cases bs with
    | nil => simp [failures] at h
    | cons b bs =>
      simp only [failures, List.map_cons, List.cons.injEq, decide_eq_decide] at h
      by_cases ha : a = .failed
      · have hb := h.1.mp ha
        subst ha hb
        rw [ih h.2 (by simpa [succeeded] using hs)]
      · have hb : b ≠ .failed := fun hb => ha (h.1.mpr hb)
        simp only [succeeded, List.filter_cons, ne_eq, ha, hb, not_false_eq_true, decide_true,
          if_true, List.cons.injEq] at hs
        rw [hs.1, ih h.2 hs.2]

lemma report_length (db : SignatureDatabase) (b : Batch) :
    (report db b).1.length = b.records.length := by
  by_cases h : db.ensureCapacity b.readings b.records = .ok () ∧ ∀ r ∈ b.records, Storable r
  · obtain ⟨results, out, hrows, hrep, -⟩ := report_admitted h.1 h.2
    simp [hrep, insertRows_length hrows]
  · simp [report_refused h]

/-- A cut leaves the tables and reports the successes of inserting, one by one, the records that
went through. -/
lemma reports_eq_insertRows (db : SignatureDatabase) (bs : List Batch) :
    ∃ results out, db.insertRows (kept (sequenceOf bs) (reports db bs).1) = .ok (results, out) ∧
      succeeded (reports db bs).1 = results.map Outcome.ofInserted ∧
      SameTables out (reports db bs).2 := by
  induction bs generalizing db with
  | nil => exact ⟨[], db, rfl, rfl, rfl, rfl⟩
  | cons b bs ih =>
    obtain ⟨tail, last, hrows, hsucc, hsame⟩ := ih (report db b).2
    have hkept : kept (sequenceOf (b :: bs)) (reports db (b :: bs)).1 =
        kept b.records (report db b).1 ++ kept (sequenceOf bs) (reports (report db b).2 bs).1 :=
      kept_append (report_length db b).symm
    have hsplit : succeeded (reports db (b :: bs)).1 =
        succeeded (report db b).1 ++ succeeded (reports (report db b).2 bs).1 :=
      List.filter_append ..
    by_cases h : db.ensureCapacity b.readings b.records = .ok () ∧ ∀ r ∈ b.records, Storable r
    · obtain ⟨results, mid, hmid, hrep, hsm⟩ := report_admitted h.1 h.2
      obtain ⟨last', hrows', hl⟩ := insertRows_congr ⟨hsm.1.symm, hsm.2.symm⟩ hrows
      refine ⟨results ++ tail, last', ?_, ?_, hl.1.symm.trans hsame.1, hl.2.symm.trans hsame.2⟩
      · rw [hkept, hrep, kept_ofInserted (insertRows_length hmid)]
        exact insertRows_append hmid hrows'
      · have hall : succeeded (results.map Outcome.ofInserted) = results.map Outcome.ofInserted := by
          apply List.filter_eq_self.mpr
          intro o ho
          obtain ⟨b', -, rfl⟩ := List.mem_map.mp ho
          simpa using ofInserted_ne_failed b'
        rw [hsplit, hsucc, hrep, hall, List.map_append]
    · have href := report_refused h
      rw [href] at hrows hsucc hsame hkept hsplit
      refine ⟨tail, last, ?_, ?_, ?_⟩
      · rw [hkept, kept_failed]
        exact hrows
      · rw [hsplit, hsucc]
        have hnone : succeeded (b.records.map fun _ => Outcome.failed) = [] := by
          simp [succeeded]
        rw [hnone, List.nil_append]
      · have hdb : (reports db (b :: bs)).2 = (reports db bs).2 := by simp [reports, href]
        rw [hdb]
        exact hsame

lemma failed_mem_report {db : SignatureDatabase} {b : Batch} : .failed ∈ (report db b).1 ↔
    ¬ (db.ensureCapacity b.readings b.records = .ok () ∧ ∀ r ∈ b.records, Storable r) := by
  constructor
  · intro hf h
    obtain ⟨results, out, -, hrep, -⟩ := report_admitted h.1 h.2
    rw [hrep] at hf
    obtain ⟨inserted, -, hi⟩ := List.mem_map.mp hf
    exact ofInserted_ne_failed inserted hi
  · intro h
    rw [report_refused h]
    obtain ⟨r, hr⟩ := List.exists_mem_of_length_pos b.nonempty
    exact List.mem_map.mpr ⟨r, hr, rfl⟩

/-- Two cuts of one sequence in which the same records fail report the same outcomes and leave the
same tables. Records fail by whole batches, which then change nothing, and a batch fails exactly
when the gate refuses it or one of its records does not fit the columns. -/
theorem cuts_agree {db : SignatureDatabase} {cs ds : List Batch}
    (hseq : sequenceOf cs = sequenceOf ds)
    (hfail : failures (reports db cs).1 = failures (reports db ds).1) :
    (reports db cs).1 = (reports db ds).1 ∧ SameTables (reports db cs).2 (reports db ds).2 ∧
    ∀ db b, (.failed ∈ (report db b).1 ↔
        ¬ (db.ensureCapacity b.readings b.records = .ok () ∧ ∀ r ∈ b.records, Storable r)) ∧
      (.failed ∈ (report db b).1 → report db b = (b.records.map fun _ => .failed, db)) := by
  obtain ⟨rc, oc, hc, hsc, htc⟩ := reports_eq_insertRows db cs
  obtain ⟨rd, od, hd, hsd, htd⟩ := reports_eq_insertRows db ds
  rw [hseq, kept_congr hfail, hd, Except.ok.injEq, Prod.mk.injEq] at hc
  obtain ⟨rfl, rfl⟩ := hc
  refine ⟨eq_of_failures hfail (hsc.trans hsd.symm),
    ⟨htc.1.symm.trans htd.1, htc.2.symm.trans htd.2⟩, fun db b => ⟨failed_mem_report, ?_⟩⟩
  exact fun hf => report_refused (failed_mem_report.mp hf)

/-- A quiet moment with room on the disk. -/
def sampleReadings : StorageReadings := ⟨0, 2 ^ 40, 0, 0, 0⟩

def pair (sequence : UInt64) : List FlaggedFileRecord :=
  [sampleRecord 1 1 1 0 1000, sampleRecord 1 sequence 1 0 1000]

def together (sequence : UInt64) : List Batch :=
  [⟨sampleReadings, pair sequence, by simp [pair], by simp [pair]⟩]

def apart (sequence : UInt64) : List Batch :=
  [⟨sampleReadings, [sampleRecord 1 1 1 0 1000], by simp, by simp⟩,
    ⟨sampleReadings, [sampleRecord 1 sequence 1 0 1000], by simp, by simp⟩]

theorem cuts_agree_pair : (reports (.open false) (together 2)).1 =
    (reports (.open false) (apart 2)).1 :=
  (@cuts_agree (.open false) (together 2) (apart 2) rfl (by decide +kernel)).1

/-- A record that does not fit takes the other record of its batch with it. -/
theorem pair_cut_observed : sequenceOf (together (2 ^ 63)) = sequenceOf (apart (2 ^ 63)) ∧
    (∀ r ∈ pair (2 ^ 63), RecordValidator.default.validate samplePrimitives r 0 = .ok ()) ∧
    (reports (.open false) (together (2 ^ 63))).1 = [.failed, .failed] ∧
    (reports (.open false) (apart (2 ^ 63))).1 = [.stored, .failed] := by
  refine ⟨rfl, ?_, by decide +kernel, by decide +kernel⟩
  intro r hr
  simp only [pair, List.mem_cons, List.not_mem_nil, or_false] at hr
  rcases hr with rfl | rfl
  · exact sampleRecord_valid (by decide) (by decide) (by decide) (by decide)
  · exact sampleRecord_valid (by decide) (by decide) (by decide) (by decide)

end Protonet.DatabaseBatch
