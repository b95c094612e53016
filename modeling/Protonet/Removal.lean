import Protonet.Database

/-!
# Removal and cleanup

Rows go by the hash of their file or by their expiry. A cleanup also forgets the daily counters of
long ago; a removal gives nothing back to them.
-/
namespace Protonet.Removal
open MachineInt Record Database

/-- `DELETE FROM records`, of the rows that meet the condition, and how many there were. -/
def deleteRows (t : RecordsTable) (condition : Row → Bool) : ℕ × RecordsTable :=
  ((t.rows.filter condition).length,
    ⟨t.rows.filter fun r => !condition r,
      t.recordId_nodup.sublist (List.filter_sublist.map Row.recordId),
      t.originSequence_nodup.sublist (List.filter_sublist.map Row.originSequence)⟩)

/-- `none` is a text that spells no hash. -/
def removeBlake3 (db : SignatureDatabase) (hash : Option Hash32) :
    Except String (Bool × SignatureDatabase) :=
  match hash with
  | none => .error "invalid BLAKE3 hash"
  | some hash =>
    let (changed, records) := deleteRows db.records fun r => decide (r.blake3 = hash)
    let db := { db with records }
    if 0 < changed then .ok (true, db.incrementGeneration) else .ok (false, db)

/-- The days before the given one are forgotten. -/
def forgetDays (daily : AList (fun _ : ℤ => ℤ)) (day : ℤ) : AList (fun _ : ℤ => ℤ) :=
  ⟨daily.entries.filter fun e => !decide (e.1 < day), daily.nodupKeys.sublist List.filter_sublist⟩

def cleanupExpired (db : SignatureDatabase) (now : Int64) : ℕ × SignatureDatabase :=
  let (changed, records) := deleteRows db.records fun r => decide (r.expiresAt ≤ now)
  let db := { db with records }
  let db := if 0 < changed then db.incrementGeneration else db
  (changed, { db with ingestionDaily := forgetDays db.ingestionDaily (dayOf now - 31) })

variable {db db' : SignatureDatabase} {now : Int64} {day : ℤ}

lemma lookup_forgetDays {daily : AList fun _ : ℤ => ℤ} {before : ℤ} :
    (forgetDays daily before).lookup day = if day < before then none else daily.lookup day := by
  ext count
  change count ∈ (forgetDays daily before).lookup day ↔ _
  rw [AList.mem_lookup_iff, forgetDays, List.mem_filter, ← AList.mem_lookup_iff]
  split_ifs with h
  · simp [h]
  · simp [h, Option.mem_def]

lemma deleteRows_sublist (t : RecordsTable) (condition : Row → Bool) :
    (deleteRows t condition).2.rows.Sublist t.rows := List.filter_sublist

lemma removeBlake3_eq {hash : Option Hash32} {removed : Bool}
    (h : removeBlake3 db hash = .ok (removed, db')) :
    db'.records.rows.Sublist db.records.rows ∧ db'.originSequences = db.originSequences ∧
      db'.ingestionDaily = db.ingestionDaily ∧ db'.inMemory = db.inMemory := by
  unfold removeBlake3 at h
  cases hash with
  | none => cases h
  | some hash =>
    dsimp only at h
    split_ifs at h
    all_goals
      obtain ⟨-, rfl⟩ := Prod.mk.inj (Except.ok.inj h)
      exact ⟨deleteRows_sublist _ _, rfl, rfl, rfl⟩

lemma removeBlake3_some (db : SignatureDatabase) (hash : Hash32) : ∃ db',
    removeBlake3 db (some hash) =
      .ok (decide (0 < (deleteRows db.records fun r => decide (r.blake3 = hash)).1), db') ∧
    db'.records = (deleteRows db.records fun r => decide (r.blake3 = hash)).2 := by
  unfold removeBlake3
  dsimp only
  split_ifs with hsome
  · exact ⟨_, by rw [decide_eq_true hsome], rfl⟩
  · exact ⟨_, by rw [decide_eq_false hsome], rfl⟩

lemma cleanupExpired_eq :
    (cleanupExpired db now).2.records.rows.Sublist db.records.rows ∧
      (cleanupExpired db now).2.originSequences = db.originSequences ∧
      (cleanupExpired db now).2.ingestionDaily = forgetDays db.ingestionDaily (dayOf now - 31) ∧
      (cleanupExpired db now).2.inMemory = db.inMemory := by
  unfold cleanupExpired
  dsimp only
  split_ifs <;> exact ⟨deleteRows_sublist _ _, rfl, rfl, rfl⟩

end Protonet.Removal
