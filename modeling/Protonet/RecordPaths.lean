import Protonet.RecordIdentity

namespace Protonet.RecordPaths
open Postcard Record RecordIdentity

variable {K : Primitives} {v : RecordValidator} {r s : FlaggedFileRecord} {now : Int64}
  {suffix : Bytes}

/-- Only the record itself is read from its encoding, and only if it is within the bounds. -/
lemma decode_encode_iff :
    FlaggedFileRecord.decode r.encode = .ok s ↔ s = r ∧ r.checkFieldBounds = .ok () := by
  constructor
  · intro h
    have hwire : flaggedFileRecordWire.decode r.encode = some (r, []) :=
      flaggedFileRecordWire.decode_encode_nil r
    unfold FlaggedFileRecord.decode at h
    by_cases hlong : r.encode.length > MAX_ENCODED_RECORD_SIZE
    · rw [if_pos hlong] at h
      cases h
    · rw [if_neg hlong, hwire] at h
      dsimp only at h
      rcases hbounds : r.checkFieldBounds with e | ⟨⟩
      · rw [hbounds] at h
        cases h
      · rw [hbounds] at h
        exact ⟨(Except.ok.inj h).symm, rfl⟩
  · rintro ⟨rfl, hbounds⟩
    exact decode_encode hbounds

lemma decode_append (h : suffix ≠ []) :
    ∃ e, FlaggedFileRecord.decode (r.encode ++ suffix) = .error e := by
  obtain ⟨b, rest, rfl⟩ := List.exists_cons_of_ne_nil h
  have hwire : flaggedFileRecordWire.decode (r.encode ++ b :: rest) = some (r, b :: rest) :=
    flaggedFileRecordWire.decode_encode r (b :: rest)
  unfold FlaggedFileRecord.decode
  by_cases hlong : (r.encode ++ b :: rest).length > MAX_ENCODED_RECORD_SIZE
  · rw [if_pos hlong]
    exact ⟨.oversized, rfl⟩
  · rw [if_neg hlong, hwire]
    exact ⟨.malformed, rfl⟩

/-- The gossip path accepts the encoding of what the synchronization path accepts. -/
lemma validateBytes_encode_iff : v.validateBytes K r.encode now = .ok s ↔
    s = r ∧ v.validate K r now = .ok () := by
  rw [validateBytes_ok_iff, decode_encode_iff]
  constructor
  · rintro ⟨⟨rfl, -⟩, hvalid⟩
    exact ⟨rfl, hvalid⟩
  · rintro ⟨rfl, hvalid⟩
    exact ⟨⟨rfl, (validate_ok_iff.mp hvalid).1⟩, hvalid⟩

/-- Every record within the bounds has an encoding of limited size that is read back as this record
and cannot be extended, and for every record at all the bytes are accepted exactly when the record
is, and as this record. -/
theorem encoding_lossless (K : Primitives) (v : RecordValidator) (r : FlaggedFileRecord)
    (now : Int64) :
    (r.checkFieldBounds = .ok () →
      r.encode.length ≤ MAX_ENCODED_RECORD_SIZE ∧
        FlaggedFileRecord.decode r.encode = .ok r ∧
        ∀ suffix ≠ [], ∃ e, FlaggedFileRecord.decode (r.encode ++ suffix) = .error e) ∧
      ((∃ s, v.validateBytes K r.encode now = .ok s) ↔ v.validate K r now = .ok ()) ∧
      ∀ s, v.validateBytes K r.encode now = .ok s → s = r := by
  refine ⟨fun hbounds => ?_, ?_, fun s hs => (validateBytes_encode_iff.mp hs).1⟩
  · exact ⟨encode_length_le hbounds, decode_encode hbounds, fun suffix hne => decode_append hne⟩
  · constructor
    · rintro ⟨s, hs⟩
      exact (validateBytes_encode_iff.mp hs).2
    · exact fun hvalid => ⟨r, validateBytes_encode_iff.mpr ⟨rfl, hvalid⟩⟩

theorem sampleRecord_lossless :
    FlaggedFileRecord.decode (sampleRecord 1 1 1 0 1000).encode = .ok (sampleRecord 1 1 1 0 1000) ∧
      ∃ e, FlaggedFileRecord.decode ((sampleRecord 1 1 1 0 1000).encode ++ [0]) = .error e := by
  obtain ⟨hwithin, -, -⟩ :=
    encoding_lossless samplePrimitives .default (sampleRecord 1 1 1 0 1000) 0
  obtain ⟨-, hread, hextended⟩ := hwithin (sampleRecord_bounds 1 1 1 0 1000)
  exact ⟨hread, hextended [0] (List.cons_ne_nil 0 [])⟩

end Protonet.RecordPaths
