import Protonet.Postcard

namespace Protonet.StrBytes
open Postcard

/-- `str::is_char_boundary`. -/
def isCharBoundary (value : Bytes) (index : ℕ) : Bool :=
  if index = 0 then true
  else
    match value[index]? with
    | none => index = value.length
    | some byte => byte < 0x80 || 0xc0 ≤ byte

inductive Panic
  | slice
  deriving DecidableEq

/-- `&value[start..stop]`. -/
def slice (value : Bytes) (start stop : ℕ) : Except Panic Bytes :=
  if start ≤ stop ∧ isCharBoundary value start ∧ isCharBoundary value stop then
    .ok ((value.drop start).take (stop - start))
  else .error .slice

variable {s : String} {c : Char} {value : Bytes} {index : ℕ}

theorem utf8_eq (s : String) : utf8 s = s.toList.flatMap String.utf8EncodeChar := by
  conv_lhs => rw [← String.ofList_toList (s := s)]
  rw [utf8, String.toByteArray_ofList, List.utf8Encode, List.toList_data_toByteArray]

theorem encode_ascii (h : c.toNat < 128) : String.utf8EncodeChar c = [UInt8.ofNat c.toNat] := by
  refine String.utf8EncodeChar_eq_singleton (Char.utf8Size_eq_one_iff.mpr ?_)
  rw [UInt32.le_iff_toNat_le]
  exact Nat.le_of_lt_succ h

/-- The first byte of a longer character is none of ASCII. -/
theorem ascii_of_encode (h : ∀ byte ∈ String.utf8EncodeChar c, byte.toNat < 128) :
    c.toNat < 128 := by
  unfold String.utf8EncodeChar at h
  dsimp only at h
  have hval : c.val.toNat = c.toNat := rfl
  split_ifs at h with hone htwo hthree
  · omega
  all_goals
    have hlead := h _ List.mem_cons_self
    rw [UInt8.toNat_ofNat'] at hlead
    omega

theorem utf8_of_ascii (h : ∀ c ∈ s.toList, c.toNat < 128) :
    utf8 s = s.toList.map fun c => UInt8.ofNat c.toNat := by
  rw [utf8_eq, List.map_eq_flatMap]
  exact List.flatMap_congr fun c hc => encode_ascii (h c hc)

theorem ascii_of_utf8 (h : ∀ byte ∈ utf8 s, byte.toNat < 128) : ∀ c ∈ s.toList, c.toNat < 128 := by
  intro c hc
  refine ascii_of_encode fun byte hbyte => h byte ?_
  rw [utf8_eq]
  exact List.mem_flatMap.mpr ⟨c, hc, hbyte⟩

theorem ofNat_ofNat (h : c.toNat < 128) : Char.ofNat (UInt8.ofNat c.toNat).toNat = c := by
  rw [UInt8.toNat_ofNat_of_lt' (h.trans (by decide)), Char.ofNat_toNat]

theorem toList_of_utf8 (h : ∀ byte ∈ utf8 s, byte.toNat < 128) :
    s.toList = (utf8 s).map fun byte => Char.ofNat byte.toNat := by
  have hascii := ascii_of_utf8 h
  rw [utf8_of_ascii hascii, List.map_map]
  calc s.toList
    _ = s.toList.map id := (List.map_id _).symm
    _ = _ := List.map_congr_left fun c hc => (ofNat_ofNat (hascii c hc)).symm

theorem boundary_of_ascii (h : ∀ byte ∈ value, byte.toNat < 128) (hindex : index ≤ value.length) :
    isCharBoundary value index = true := by
  unfold isCharBoundary
  split_ifs with hzero
  · rfl
  · rcases hbyte : value[index]? with _ | byte
    · have := List.getElem?_eq_none_iff.mp hbyte
      exact decide_eq_true (by omega)
    · have := h byte (List.mem_of_getElem? hbyte)
      simp [UInt8.lt_iff_toNat_lt, this]

end Protonet.StrBytes
