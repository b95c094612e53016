import Protonet.Removal
import Protonet.StrBytes
import Protonet.SwarmHandlers

/-!
# Hashes in text

The parser of a hash and the two calls of the interface that take one. The parser counts bytes,
cuts the text into pairs and reads each pair as a number.
-/
namespace Protonet.HashText
open Postcard Record Database Removal StrBytes Swarm

/-- `char::to_digit(16)`, of a byte. -/
def toDigit (byte : UInt8) : Option ℕ :=
  if 48 ≤ byte ∧ byte ≤ 57 then some (byte.toNat - 48)
  else if 97 ≤ byte ∧ byte ≤ 102 then some (byte.toNat - 87)
  else if 65 ≤ byte ∧ byte ≤ 70 then some (byte.toNat - 55)
  else none

/-- The loop over the digits; a result above the range of `u8` is an error. -/
def accumulate (result : ℕ) : Bytes → Option UInt8
  | [] => some (UInt8.ofNat result)
  | byte :: digits =>
    match toDigit byte with
    | none => none
    | some x => if result * 16 + x < 256 then accumulate (result * 16 + x) digits else none

def plus : UInt8 := 43

def minus : UInt8 := 45

/-- `u8::from_str_radix(_, 16)`. A leading plus sign is part of the grammar. -/
def fromStrRadix (src : Bytes) : Option UInt8 :=
  match src with
  | [] => none
  | [byte] => if byte = plus ∨ byte = minus then none else accumulate 0 [byte]
  | byte :: digits => if byte = plus then accumulate 0 digits else accumulate 0 (byte :: digits)

/-- The loop over the output, from an index on. -/
def decodeFrom (value : Bytes) (index : ℕ) :
    (rounds : ℕ) → Except Panic (Option {bytes : Bytes // bytes.length = rounds})
  | 0 => .ok (some ⟨[], rfl⟩)
  | rounds + 1 =>
    match slice value (index * 2) (index * 2 + 2) with
    | .error panic => .error panic
    | .ok pair =>
      match fromStrRadix pair with
      | none => .ok none
      | some byte =>
        match decodeFrom value (index + 1) rounds with
        | .error panic => .error panic
        | .ok rest => .ok (rest.map fun bytes => ⟨byte :: bytes.1, congrArg (· + 1) bytes.2⟩)

def decodeHash (value : String) : Except Panic (Option Hash32) :=
  if (utf8 value).length ≠ 64 then .ok none else decodeFrom (utf8 value) 0 32

/-- A record as the interface shows it; instants are in milliseconds. -/
structure FileSignature where
  blake3Hash : String
  fileName : String
  fileSize : UInt64
  flaggedByPeer : String
  flaggedAt : Int64
  reason : String
  threatLevel : String

/-- How peer ids are printed, which instants the calendar has, and the clock. -/
structure Display where
  peerText : PeerId → String
  calendar : Int64 → Bool
  now : Int64

def toFileSignature (K : Primitives) (D : Display) (record : FlaggedFileRecord) :
    FileSignature where
  blake3Hash := hex record.blake3.1
  fileName := (record.fileName.map Subtype.val).getD "unnamed file"
  fileSize := record.fileSize
  flaggedByPeer :=
    match record.origin K with
    | .ok peer => D.peerText peer
    | .error _ => "invalid peer"
  flaggedAt := if D.calendar record.createdAtUnixMs then record.createdAtUnixMs else D.now
  reason := record.reason.1
  threatLevel :=
    match record.threatLevel with
    | .malicious => "MALICIOUS"

def getByBlake3 (K : Primitives) (D : Display) (db : SignatureDatabase) (hash : String) :
    Except Panic (Except String (Option FileSignature)) :=
  match decodeHash hash with
  | .error panic => .error panic
  | .ok none => .ok (.error "invalid BLAKE3 hash")
  | .ok (some bytes) =>
    match db.records.rows.find? fun r => decide (r.blake3 = bytes) with
    | none => .ok (.ok none)
    | some row =>
      match FlaggedFileRecord.decode row.encodedRecord with
      | .error e => .ok (.error e.message)
      | .ok record => .ok (.ok (some (toFileSignature K D record)))

def isFlagged (K : Primitives) (D : Display) (db : SignatureDatabase) (blake3Hash : String) :
    Except Panic (Option FileSignature) :=
  match getByBlake3 K D db blake3Hash with
  | .error panic => .error panic
  | .ok (.error _) => .ok none
  | .ok (.ok signature) => .ok signature

def removeAndSave (db : SignatureDatabase) (hash : String) :
    Except Panic (Bool × SignatureDatabase) :=
  match decodeHash hash with
  | .error panic => .error panic
  | .ok bytes =>
    match removeBlake3 db bytes with
    | .error _ => .ok (false, db)
    | .ok (changed, db) => .ok (changed, db)

def isHexDigit (c : Char) : Bool :=
  ('0' ≤ c && c ≤ '9') || ('a' ≤ c && c ≤ 'f') || ('A' ≤ c && c ≤ 'F')

variable {x y byte : UInt8} {d e : ℕ} {c : Char} {value text out : Bytes} {s : String}

lemma isHexDigit_lt (h : isHexDigit c = true) : c.toNat < 128 := by
  simp only [isHexDigit, Bool.or_eq_true, Bool.and_eq_true, decide_eq_true_eq, Char.le_def,
    UInt32.le_iff_toNat_le] at h
  change c.val.toNat < 128
  have hnine : ('9' : Char).val.toNat = 57 := rfl
  have hf : ('f' : Char).val.toNat = 102 := rfl
  have hF : ('F' : Char).val.toNat = 70 := rfl
  omega

lemma isHexDigit_table : ∀ n < 128,
    isHexDigit (Char.ofNat n) = (toDigit (UInt8.ofNat n)).isSome := by
  decide +kernel

lemma toDigit_table : ∀ n < 256, ∀ d ∈ toDigit (UInt8.ofNat n),
    n < 128 ∧ d < 16 ∧ Nat.digitChar d = (Char.ofNat n).toLower := by
  decide +kernel

lemma digitChar_table : ∀ d < 16, (Nat.digitChar d).toNat < 128 ∧
    toDigit (UInt8.ofNat (Nat.digitChar d).toNat) = some d := by
  decide +kernel

lemma toDigit_of_char (h : isHexDigit c = true) : ∃ d, toDigit (UInt8.ofNat c.toNat) = some d := by
  have htable := isHexDigit_table c.toNat (isHexDigit_lt h)
  rw [Char.ofNat_toNat, h] at htable
  exact Option.isSome_iff_exists.mp htable.symm

lemma toDigit_spec (h : toDigit x = some d) : x.toNat < 128 ∧ d < 16 ∧
    isHexDigit (Char.ofNat x.toNat) = true ∧
    Nat.digitChar d = (Char.ofNat x.toNat).toLower := by
  have hx : UInt8.ofNat x.toNat = x := UInt8.ofNat_toNat
  obtain ⟨hascii, hd, hlower⟩ := toDigit_table x.toNat x.toNat_lt d (by rw [hx]; exact h)
  refine ⟨hascii, hd, ?_, hlower⟩
  rw [isHexDigit_table x.toNat hascii, hx, h]
  rfl

lemma accumulate_two (hx : toDigit x = some d) (hy : toDigit y = some e) :
    accumulate 0 [x, y] = some (UInt8.ofNat (d * 16 + e)) := by
  have hd := (toDigit_spec hx).2.1
  have he := (toDigit_spec hy).2.1
  simp only [accumulate, hx, hy]
  rw [if_pos (by omega), if_pos (by omega), zero_mul, zero_add]

lemma accumulate_one (hy : toDigit y = some e) : accumulate 0 [y] = some (UInt8.ofNat e) := by
  have he := (toDigit_spec hy).2.1
  simp only [accumulate, hy]
  rw [if_pos (by omega), zero_mul, zero_add]

lemma fromStrRadix_pair :
    fromStrRadix [x, y] = if x = plus then accumulate 0 [y] else accumulate 0 [x, y] := rfl

lemma fromStrRadix_digits (hx : toDigit x = some d) (hy : toDigit y = some e) :
    fromStrRadix [x, y] = some (UInt8.ofNat (d * 16 + e)) := by
  have hplus : x ≠ plus := by
    rintro rfl
    have hnone : toDigit plus = none := by decide
    rw [hnone] at hx
    cases hx
  rw [fromStrRadix_pair, if_neg hplus, accumulate_two hx hy]

/-- What a pair can be: two digits, or a plus sign and one. -/
lemma fromStrRadix_some (h : fromStrRadix [x, y] = some byte) :
    ∃ e, toDigit y = some e ∧ ((x = plus ∧ byte = UInt8.ofNat e) ∨
      ∃ d, toDigit x = some d ∧ byte = UInt8.ofNat (d * 16 + e)) := by
  rw [fromStrRadix_pair] at h
  rcases hy : toDigit y with _ | e
  · rcases hx : toDigit x with _ | d
    · simp [accumulate, hx, hy] at h
    · simp [accumulate, hx, hy] at h
  · refine ⟨e, rfl, ?_⟩
    split_ifs at h with hplus
    · rw [accumulate_one hy] at h
      exact .inl ⟨hplus, (Option.some.inj h).symm⟩
    · rcases hx : toDigit x with _ | d
      · simp [accumulate, hx] at h
      · rw [accumulate_two hx hy] at h
        exact .inr ⟨d, rfl, (Option.some.inj h).symm⟩

def IsDigit (byte : UInt8) : Prop := (toDigit byte).isSome

lemma not_isDigit_plus : ¬IsDigit plus := by
  unfold IsDigit
  decide

/-- The pair at an index: two digits, or a plus sign and a digit. -/
def PairAt (value : Bytes) (i : ℕ) : Prop :=
  ∃ x y, value[i * 2]? = some x ∧ value[i * 2 + 1]? = some y ∧ (IsDigit x ∨ x = plus) ∧ IsDigit y

lemma fromStrRadix_isSome_iff :
    (fromStrRadix [x, y]).isSome ↔ (IsDigit x ∨ x = plus) ∧ IsDigit y := by
  constructor
  · intro h
    obtain ⟨byte, hbyte⟩ := Option.isSome_iff_exists.mp h
    obtain ⟨e, hy, ⟨rfl, -⟩ | ⟨d, hx, -⟩⟩ := fromStrRadix_some hbyte
    · exact ⟨.inr rfl, Option.isSome_iff_exists.mpr ⟨e, hy⟩⟩
    · exact ⟨.inl (Option.isSome_iff_exists.mpr ⟨d, hx⟩), Option.isSome_iff_exists.mpr ⟨e, hy⟩⟩
  · rintro ⟨hx, hy⟩
    obtain ⟨e, hy⟩ := Option.isSome_iff_exists.mp hy
    rcases hx with hx | rfl
    · obtain ⟨d, hx⟩ := Option.isSome_iff_exists.mp hx
      rw [fromStrRadix_digits hx hy]
      rfl
    · rw [fromStrRadix_pair, if_pos rfl, accumulate_one hy]
      rfl

/-- The texts the loop reads. -/
inductive Reads : Bytes → Bytes → Prop
  | nil : Reads [] []
  | pair {x y byte : UInt8} {text out : Bytes} (h : fromStrRadix [x, y] = some byte)
      (rest : Reads text out) : Reads (x :: y :: text) (byte :: out)

lemma Reads.unique (h : Reads text out) {out' : Bytes} (h' : Reads text out') : out = out' := by
  induction h generalizing out' with
  | nil => cases h' with
    | nil => rfl
  | pair hpair rest ih => cases h' with
    | pair hpair' rest' =>
      rw [ih rest', Option.some.inj (hpair.symm.trans hpair')]

lemma Reads.length_eq (h : Reads text out) : text.length = out.length * 2 := by
  induction h with
  | nil => rfl
  | pair hpair rest ih =>
    rw [List.length_cons, List.length_cons, List.length_cons, ih]
    omega

lemma Reads.pairAt (h : Reads text out) {i : ℕ} (hi : i * 2 < text.length) : PairAt text i := by
  induction h generalizing i with
  | nil => exact absurd hi (Nat.not_lt_zero _)
  | @pair x y byte text out hpair rest ih =>
    cases i with
    | zero => exact ⟨x, y, rfl, rfl, fromStrRadix_isSome_iff.mp (Option.isSome_of_eq_some hpair)⟩
    | succ i =>
      have hrest : i * 2 < text.length := by
        rw [List.length_cons, List.length_cons] at hi
        omega
      obtain ⟨x', y', hx, hy, hdigits⟩ := ih hrest
      exact ⟨x', y', by simpa [Nat.add_mul] using hx, by simpa [Nat.add_mul] using hy, hdigits⟩

lemma Reads.digits (h : Reads text out) (hplus : plus ∉ text) : ∀ byte ∈ text, IsDigit byte := by
  induction h with
  | nil => simp
  | pair hpair rest ih =>
    have hdigits := fromStrRadix_isSome_iff.mp (Option.isSome_of_eq_some hpair)
    simp only [List.mem_cons, not_or] at hplus
    rw [List.forall_mem_cons, List.forall_mem_cons]
    exact ⟨hdigits.1.resolve_right fun h => hplus.1 h.symm, hdigits.2, ih hplus.2.2⟩

variable {index rounds i : ℕ}

lemma drop_pair (h : index * 2 + 1 < value.length) :
    ∃ x y, value[index * 2]? = some x ∧ value[index * 2 + 1]? = some y ∧
      value.drop (index * 2) = x :: y :: value.drop ((index + 1) * 2) := by
  refine ⟨value[index * 2], value[index * 2 + 1], List.getElem?_eq_getElem _,
    List.getElem?_eq_getElem h, ?_⟩
  rw [List.drop_eq_getElem_cons (by omega), List.drop_eq_getElem_cons h, Nat.add_mul, one_mul]

lemma pairAt_of_digits (hdigits : ∀ byte ∈ value, IsDigit byte) (h : i * 2 + 1 < value.length) :
    PairAt value i := by
  obtain ⟨x, y, hx, hy, -⟩ := drop_pair h
  exact ⟨x, y, hx, hy, .inl (hdigits x (List.mem_of_getElem? hx)),
    hdigits y (List.mem_of_getElem? hy)⟩

/-- How the loop ends, from an index on. -/
inductive Outcome (value : Bytes) (index rounds : ℕ) :
    Except Panic (Option {bytes : Bytes // bytes.length = rounds}) → Prop
  | read (out : {bytes : Bytes // bytes.length = rounds})
      (reads : Reads (value.drop (index * 2)) out.1)
      (ends : ∀ j, index ≤ j → j < index + rounds → isCharBoundary value (j * 2 + 2)) :
      Outcome value index rounds (.ok (some out))
  | refused (i : ℕ) (from_le : index ≤ i) (lt_to : i < index + rounds)
      (ends : ∀ j, index ≤ j → j ≤ i → isCharBoundary value (j * 2 + 2))
      (pairs : ∀ j, index ≤ j → j < i → PairAt value j) (bad : ¬PairAt value i) :
      Outcome value index rounds (.ok none)
  | torn (i : ℕ) (from_le : index ≤ i) (lt_to : i < index + rounds)
      (pairs : ∀ j, index ≤ j → j < i → PairAt value j)
      (cut : ¬isCharBoundary value (i * 2 + 2)) :
      Outcome value index rounds (.error .slice)

lemma forall_from {P : ℕ → Prop} {n : ℕ} (hindex : P index)
    (h : ∀ j, index + 1 ≤ j → j < n → P j) : ∀ j, index ≤ j → j < n → P j := by
  intro j hj hlt
  rcases hj.eq_or_lt with rfl | hj
  · exact hindex
  · exact h j hj hlt

lemma decodeFrom_outcome (hlen : value.length = (index + rounds) * 2)
    (hstart : isCharBoundary value (index * 2)) :
    Outcome value index rounds (decodeFrom value index rounds) := by
  induction rounds generalizing index with
  | zero =>
    have hnone : ∀ j, index ≤ j → ¬j < index + 0 := fun j hj => not_lt.mpr hj
    refine .read ⟨[], rfl⟩ ?_ fun j hj hlt => absurd hlt (hnone j hj)
    rw [List.drop_eq_nil_of_le (by omega)]
    exact .nil
  | succ rounds ih =>
    obtain ⟨x, y, hx, hy, hdrop⟩ : ∃ x y, value[index * 2]? = some x ∧
        value[index * 2 + 1]? = some y ∧
          value.drop (index * 2) = x :: y :: value.drop ((index + 1) * 2) := drop_pair (by omega)
    by_cases hcut : isCharBoundary value (index * 2 + 2)
    · have hslice : slice value (index * 2) (index * 2 + 2) = .ok [x, y] := by
        rw [slice, if_pos ⟨by omega, hstart, hcut⟩, hdrop, Nat.add_sub_cancel_left]
        rfl
      have hpair : PairAt value index ↔ (fromStrRadix [x, y]).isSome := by
        rw [fromStrRadix_isSome_iff, PairAt]
        simp [hx, hy]
      have hcut' : isCharBoundary value ((index + 1) * 2) := by
        rwa [Nat.add_mul, one_mul]
      have hrest := @ih (index + 1) (by omega) hcut'
      rw [decodeFrom, hslice]
      dsimp only
      rcases hparse : fromStrRadix [x, y] with _ | byte
      · exact .refused index le_rfl (by omega)
          (fun j hj hle => by rwa [le_antisymm hle hj])
          (fun j hj hlt => absurd hlt (not_lt.mpr hj)) (by simp [hpair, hparse])
      · have hfirst : PairAt value index := hpair.mpr (Option.isSome_of_eq_some hparse)
        generalize decodeFrom value (index + 1) rounds = rest at hrest
        cases hrest with
        | read out reads ends =>
          refine .read _ ?_ (forall_from hcut fun j hj hlt => ends j hj (by omega))
          rw [hdrop]
          exact .pair hparse reads
        | refused i from_le lt_to ends pairs bad =>
          exact .refused i (by omega) (by omega)
            (fun j hj hle => forall_from hcut (fun j hj hlt => ends j hj (Nat.le_of_lt_succ hlt))
              j hj (Nat.lt_succ_of_le hle)) (forall_from hfirst pairs) bad
        | torn i from_le lt_to pairs cut =>
          exact .torn i (by omega) (by omega) (forall_from hfirst pairs) cut
    · have hslice : slice value (index * 2) (index * 2 + 2) = .error .slice :=
        if_neg fun h => hcut h.2.2
      rw [decodeFrom, hslice]
      exact .torn index le_rfl (by omega) (fun j hj hlt => absurd hlt (not_lt.mpr hj)) hcut

def IsHash (s : String) : Prop := s.toList.length = 64 ∧ ∀ c ∈ s.toList, isHexDigit c

def Spells (s : String) (hash : Hash32) : Prop := IsHash s ∧ hex hash.1 = s.toLower

variable {b b' : Hash32}

lemma IsDigit.ascii (h : IsDigit byte) : byte.toNat < 128 := by
  obtain ⟨d, hd⟩ := Option.isSome_iff_exists.mp h
  exact (toDigit_spec hd).1

lemma isHash_iff : IsHash s ↔ (utf8 s).length = 64 ∧ ∀ byte ∈ utf8 s, IsDigit byte := by
  constructor
  · rintro ⟨hlen, hdigits⟩
    rw [utf8_of_ascii fun c hc => isHexDigit_lt (hdigits c hc), List.length_map]
    refine ⟨hlen, fun byte hbyte => ?_⟩
    obtain ⟨c, hc, rfl⟩ := List.mem_map.mp hbyte
    exact Option.isSome_iff_exists.mpr (toDigit_of_char (hdigits c hc))
  · rintro ⟨hlen, hdigits⟩
    rw [IsHash, toList_of_utf8 fun byte hbyte => (hdigits byte hbyte).ascii, List.length_map]
    refine ⟨hlen, fun c hc => ?_⟩
    obtain ⟨byte, hbyte, rfl⟩ := List.mem_map.mp hc
    obtain ⟨d, hd⟩ := Option.isSome_iff_exists.mp (hdigits byte hbyte)
    exact (toDigit_spec hd).2.2.1

lemma hexByte_digits (hx : toDigit x = some d) (hy : toDigit y = some e) :
    hexByte (UInt8.ofNat (d * 16 + e)) =
      [(Char.ofNat x.toNat).toLower, (Char.ofNat y.toNat).toLower] := by
  obtain ⟨-, hd, -, hxlower⟩ := toDigit_spec hx
  obtain ⟨-, he, -, hylower⟩ := toDigit_spec hy
  have hbyte : (UInt8.ofNat (d * 16 + e)).toNat = d * 16 + e :=
    UInt8.toNat_ofNat_of_lt' (by change d * 16 + e < 256; omega)
  have hhigh : (d * 16 + e) / 16 = d := by omega
  have hlow : (d * 16 + e) % 16 = e := by omega
  rw [hexByte, hbyte, hhigh, hlow, hxlower, hylower]

/-- What digits are read as prints as they do, in lower case. -/
lemma Reads.prints (h : Reads text out) (hdigits : ∀ byte ∈ text, IsDigit byte) :
    out.flatMap hexByte = text.map fun byte => (Char.ofNat byte.toNat).toLower := by
  induction h with
  | nil => rfl
  | pair hpair rest ih =>
    rw [List.forall_mem_cons, List.forall_mem_cons] at hdigits
    obtain ⟨d, hd⟩ := Option.isSome_iff_exists.mp hdigits.1
    obtain ⟨e, he⟩ := Option.isSome_iff_exists.mp hdigits.2.1
    rw [fromStrRadix_digits hd he] at hpair
    rw [List.flatMap_cons, ← Option.some.inj hpair, hexByte_digits hd he, ih hdigits.2.2]
    rfl

/-- The printed form of bytes, again in bytes. -/
def hexText (bytes : Bytes) : Bytes := (bytes.flatMap hexByte).map fun c => UInt8.ofNat c.toNat

lemma hexText_cons : hexText (byte :: out) = UInt8.ofNat (Nat.digitChar (byte.toNat / 16)).toNat ::
    UInt8.ofNat (Nat.digitChar (byte.toNat % 16)).toNat :: hexText out := rfl

lemma toDigit_halves (byte : UInt8) :
    toDigit (UInt8.ofNat (Nat.digitChar (byte.toNat / 16)).toNat) = some (byte.toNat / 16) ∧
      toDigit (UInt8.ofNat (Nat.digitChar (byte.toNat % 16)).toNat) = some (byte.toNat % 16) := by
  have hlt := byte.toNat_lt
  exact ⟨(digitChar_table _ (by omega)).2, (digitChar_table _ (by omega)).2⟩

lemma reads_hexText (bytes : Bytes) : Reads (hexText bytes) bytes := by
  induction bytes with
  | nil => exact .nil
  | cons byte bytes ih =>
    obtain ⟨hhigh, hlow⟩ := toDigit_halves byte
    have hbyte : byte.toNat / 16 * 16 + byte.toNat % 16 = byte.toNat := by omega
    rw [hexText_cons]
    refine .pair ?_ ih
    rw [fromStrRadix_digits hhigh hlow, hbyte, UInt8.ofNat_toNat]

lemma digits_hexText (bytes : Bytes) : ∀ byte ∈ hexText bytes, IsDigit byte := by
  induction bytes with
  | nil => simp [hexText]
  | cons byte bytes ih =>
    obtain ⟨hhigh, hlow⟩ := toDigit_halves byte
    rw [hexText_cons, List.forall_mem_cons, List.forall_mem_cons]
    exact ⟨Option.isSome_of_eq_some hhigh, Option.isSome_of_eq_some hlow, ih⟩

lemma utf8_hex (bytes : Bytes) : utf8 (hex bytes) = hexText bytes := by
  rw [hex, utf8_of_ascii, String.toList_ofList, hexText]
  intro c hc
  rw [String.toList_ofList] at hc
  obtain ⟨byte, -, hbyte⟩ := List.mem_flatMap.mp hc
  have hlt := byte.toNat_lt
  simp only [hexByte, List.mem_cons, List.not_mem_nil, or_false] at hbyte
  obtain rfl | rfl := hbyte
  · exact (digitChar_table _ (by omega)).1
  · exact (digitChar_table _ (by omega)).1

variable {K : Primitives} {D : Display} {db db' : SignatureDatabase} {signature : FileSignature}
  {removed : Bool}

lemma decodeHash_long (hlen : (utf8 s).length ≠ 64) : decodeHash s = .ok none := if_pos hlen

lemma decodeHash_outcome (hlen : (utf8 s).length = 64) :
    Outcome (utf8 s) 0 32 (decodeHash s) := by
  rw [decodeHash, if_neg (not_not.mpr hlen)]
  exact decodeFrom_outcome hlen rfl

lemma reads_of_decodeHash (h : decodeHash s = .ok (some b)) :
    (utf8 s).length = 64 ∧ Reads (utf8 s) b.1 := by
  by_cases hlen : (utf8 s).length = 64
  · have houtcome := decodeHash_outcome hlen
    rw [h] at houtcome
    cases houtcome with
    | read out reads ends => exact ⟨hlen, reads⟩
  · rw [decodeHash_long hlen] at h
    cases h

lemma decodeHash_of_digits (hlen : (utf8 s).length = 64) (hdigits : ∀ byte ∈ utf8 s, IsDigit byte) :
    ∃ b, decodeHash s = .ok (some b) := by
  have houtcome := decodeHash_outcome hlen
  generalize decodeHash s = r at houtcome ⊢
  cases houtcome with
  | read out reads ends => exact ⟨out, rfl⟩
  | refused i from_le lt_to ends pairs bad =>
    exact absurd (pairAt_of_digits hdigits (by omega)) bad
  | torn i from_le lt_to pairs cut =>
    refine absurd (boundary_of_ascii (fun byte hbyte => (hdigits byte hbyte).ascii) ?_) cut
    omega

/-- A plus sign in front of a digit, somewhere in a text of 32 pairs that are otherwise digits. -/
structure Signed (s : String) : Prop where
  length : (utf8 s).length = 64
  pairs : ∀ i < 32, PairAt (utf8 s) i
  signed : plus ∈ utf8 s

/-- After some pairs that read well, the end of the next one lies inside a character. -/
structure Torn (s : String) : Prop where
  length : (utf8 s).length = 64
  torn : ∃ i < 32, (∀ j < i, PairAt (utf8 s) j) ∧ ¬isCharBoundary (utf8 s) (i * 2 + 2)

/-- What a parser of hashes and its two callers promise for a string. -/
structure Exact (s : String) : Prop where
  returns : ∃ r, decodeHash s = .ok r
  accepts : (∃ b, decodeHash s = .ok (some b)) ↔ IsHash s
  spells : ∀ b, decodeHash s = .ok (some b) → hex b.1 = s.toLower
  flagged : ∀ K D db signature, isFlagged K D db s = .ok (some signature) →
    ∃ row ∈ db.records.rows, Spells s row.blake3 ∧ ∃ record,
      FlaggedFileRecord.decode row.encodedRecord = .ok record ∧
        signature = toFileSignature K D record
  removed : ∀ db removed db', removeAndSave db s = .ok (removed, db') →
    ∀ row ∈ db.records.rows, row ∉ db'.records.rows → Spells s row.blake3

lemma isFlagged_row (h : isFlagged K D db s = .ok (some signature)) :
    ∃ b, decodeHash s = .ok (some b) ∧ ∃ row ∈ db.records.rows, row.blake3 = b ∧ ∃ record,
      FlaggedFileRecord.decode row.encodedRecord = .ok record ∧
        signature = toFileSignature K D record := by
  unfold isFlagged getByBlake3 at h
  rcases hdecode : decodeHash s with _ | _ | b
  · rw [hdecode] at h
    cases h
  · rw [hdecode] at h
    cases h
  · rw [hdecode] at h
    dsimp only at h
    rcases hfind : db.records.rows.find? fun r => decide (r.blake3 = b) with _ | row
    · rw [hfind] at h
      cases h
    · rw [hfind] at h
      dsimp only at h
      rcases hrecord : FlaggedFileRecord.decode row.encodedRecord with _ | record
      · rw [hrecord] at h
        cases h
      · rw [hrecord] at h
        have hrow := List.find?_some hfind
        exact ⟨b, rfl, row, List.mem_of_find?_eq_some hfind, of_decide_eq_true hrow, record,
          hrecord, (Option.some.inj (Except.ok.inj h)).symm⟩

lemma removeBlake3_rows {changed : Bool} (h : removeBlake3 db (some b) = .ok (changed, db')) :
    db'.records = (deleteRows db.records fun r => decide (r.blake3 = b)).2 := by
  unfold removeBlake3 at h
  dsimp only at h
  split_ifs at h
  all_goals
    obtain ⟨-, rfl⟩ := Prod.mk.inj (Except.ok.inj h)
    rfl

lemma removeAndSave_row (h : removeAndSave db s = .ok (removed, db')) {row : Row}
    (hrow : row ∈ db.records.rows) (hgone : row ∉ db'.records.rows) :
    decodeHash s = .ok (some row.blake3) := by
  unfold removeAndSave at h
  rcases hdecode : decodeHash s with _ | _ | b
  · rw [hdecode] at h
    cases h
  · rw [hdecode] at h
    cases h
    exact absurd hrow hgone
  · rw [hdecode] at h
    dsimp only at h
    rcases hremove : removeBlake3 db (some b) with _ | ⟨changed, after⟩
    · rw [hremove] at h
      cases h
      exact absurd hrow hgone
    · rw [hremove] at h
      cases h
      rw [removeBlake3_rows hremove] at hgone
      have hhash : row.blake3 = b := by
        by_contra hne
        exact hgone (List.mem_filter.mpr ⟨hrow, by simpa using hne⟩)
      rw [hhash]

/-- A text without signs that is read spells what it is read as. -/
lemma spells_of_decodeHash (hsigned : ¬Signed s) (h : decodeHash s = .ok (some b)) :
    Spells s b := by
  obtain ⟨hlen, hreads⟩ := reads_of_decodeHash h
  have hplus : plus ∉ utf8 s := fun hplus =>
    hsigned ⟨hlen, fun i hi => hreads.pairAt (by omega), hplus⟩
  have hdigits := hreads.digits hplus
  refine ⟨isHash_iff.mpr ⟨hlen, hdigits⟩, ?_⟩
  rw [hex, hreads.prints hdigits, String.toLower, ← String.ofList_toList (s := s.map _),
    String.toList_map, toList_of_utf8 fun byte hbyte => (hdigits byte hbyte).ascii, List.map_map]
  rfl

lemma Exact.not_signed (h : Exact s) : ¬Signed s := by
  intro hsigned
  have houtcome := decodeHash_outcome hsigned.length
  obtain ⟨r, hr⟩ := h.returns
  generalize hdecode : decodeHash s = result at houtcome
  cases houtcome with
  | read out reads ends =>
    obtain ⟨-, hdigits⟩ := isHash_iff.mp (h.accepts.mp ⟨out, hdecode⟩)
    exact not_isDigit_plus (hdigits plus hsigned.signed)
  | refused i from_le lt_to ends pairs bad => exact bad (hsigned.pairs i (by omega))
  | torn i from_le lt_to pairs cut =>
    rw [hdecode] at hr
    cases hr

lemma Exact.not_torn (h : Exact s) : ¬Torn s := by
  rintro ⟨hlen, i, hi, hpairs, hcut⟩
  have houtcome := decodeHash_outcome hlen
  obtain ⟨r, hr⟩ := h.returns
  generalize hdecode : decodeHash s = result at houtcome
  cases houtcome with
  | read out reads ends => exact hcut (ends i (Nat.zero_le _) (by omega))
  | refused j from_le lt_to ends pairs bad =>
    rcases lt_or_ge j i with hlt | hge
    · exact bad (hpairs j hlt)
    · exact hcut (ends i (Nat.zero_le _) hge)
  | torn i from_le lt_to pairs cut =>
    rw [hdecode] at hr
    cases hr

lemma returns_of_not_torn (htorn : ¬Torn s) : ∃ r, decodeHash s = .ok r := by
  by_cases hlen : (utf8 s).length = 64
  · have houtcome := decodeHash_outcome hlen
    generalize decodeHash s = result at houtcome ⊢
    cases houtcome with
    | read out reads ends => exact ⟨_, rfl⟩
    | refused i from_le lt_to ends pairs bad => exact ⟨_, rfl⟩
    | torn i from_le lt_to pairs cut =>
      exact absurd ⟨hlen, i, by omega, fun j hj => pairs j (Nat.zero_le _) hj, cut⟩ htorn
  · exact ⟨none, decodeHash_long hlen⟩

lemma exact_of_not (hsigned : ¬Signed s) (htorn : ¬Torn s) : Exact s where
  returns := returns_of_not_torn htorn
  accepts := by
    constructor
    · rintro ⟨b, hb⟩
      exact (spells_of_decodeHash hsigned hb).1
    · intro hhash
      obtain ⟨hlen, hdigits⟩ := isHash_iff.mp hhash
      exact decodeHash_of_digits hlen hdigits
  spells b hb := (spells_of_decodeHash hsigned hb).2
  flagged K D db signature h := by
    obtain ⟨b, hb, row, hrow, rfl, hrecord⟩ := isFlagged_row h
    exact ⟨row, hrow, spells_of_decodeHash hsigned hb, hrecord⟩
  removed db removed db' h row hrow hgone :=
    spells_of_decodeHash hsigned (removeAndSave_row h hrow hgone)

lemma decodeHash_hex (b : Hash32) : decodeHash (hex b.1) = .ok (some b) := by
  have hlen : (utf8 (hex b.1)).length = 64 := by
    rw [utf8_hex, (reads_hexText b.1).length_eq, b.2]
  have hdigits : ∀ byte ∈ utf8 (hex b.1), IsDigit byte := by
    rw [utf8_hex]
    exact digits_hexText b.1
  obtain ⟨b', hb'⟩ := decodeHash_of_digits hlen hdigits
  have hreads := (reads_of_decodeHash hb').2
  rw [utf8_hex] at hreads
  rw [hb', Subtype.ext (hreads.unique (reads_hexText b.1))]

lemma hex_injective : Function.Injective fun b : Hash32 => hex b.1 := by
  intro b b' h
  have hb := decodeHash_hex b
  rw [show hex b.1 = hex b'.1 from h, decodeHash_hex] at hb
  exact (Option.some.inj (Except.ok.inj hb)).symm

/-- A string is handled exactly as promised just when it is neither of the two kinds that the
parser gets wrong. Printed hashes never are, and no string spells two hashes. -/
theorem decodeHash_exact_iff (s : String) :
    (Exact s ↔ ¬Signed s ∧ ¬Torn s) ∧
      (∀ b : Hash32, decodeHash (hex b.1) = .ok (some b)) ∧
      ∀ b b', Spells s b → Spells s b' → b = b' := by
  refine ⟨⟨fun h => ⟨h.not_signed, h.not_torn⟩, fun h => exact_of_not h.1 h.2⟩, decodeHash_hex,
    fun b b' h h' => ?_⟩
  exact hex_injective (h.2.trans h'.2.symm)

/-- `+f`, 32 times. -/
def signedText : String := String.ofList (List.replicate 32 ['+', 'f']).flatten

/-- A character of two bytes that begins at an odd offset. -/
def tornText : String := String.ofList ('0' :: 'é' :: List.replicate 61 '0')

/-- One text that is no hash is read as one, and another brings the caller down. -/
theorem misread_texts :
    (decodeHash signedText = .ok (some ⟨List.replicate 32 15, rfl⟩) ∧ ¬Exact signedText) ∧
      decodeHash tornText = .error .slice ∧ ¬Exact tornText := by
  have hsigned : decodeHash signedText = .ok (some ⟨List.replicate 32 15, rfl⟩) := by decide +kernel
  have htorn : decodeHash tornText = .error .slice := by decide +kernel
  refine ⟨⟨hsigned, fun h => ?_⟩, htorn, fun h => ?_⟩
  · have hhash := (h.accepts.mp ⟨_, hsigned⟩).2 '+' (by decide +kernel)
    exact absurd hhash (by decide)
  · obtain ⟨r, hr⟩ := h.returns
    rw [htorn] at hr
    cases hr

end Protonet.HashText
