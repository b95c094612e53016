import Mathlib

/-!
# A compact binary wire format

A `Wire α` is a serializer with the parser that inverts it on any continuation, so its encodings
are injective and no encoding is a proper prefix of another. The combinators cover the shapes of
the format: little-endian base-128 integers, zigzag signed integers, length-prefixed sequences,
byte strings and UTF-8 strings, options, fixed arrays, products and mapped types.
-/
namespace Protonet.Postcard

abbrev Bytes := List UInt8

structure Wire (α : Type) where
  encode : α → Bytes
  decode : Bytes → Option (α × Bytes)
  decode_encode : ∀ a rest, decode (encode a ++ rest) = some (a, rest)

variable {α β : Type}

/-- An encoding determines both the value and where it ends. -/
theorem Wire.encode_append_inj (w : Wire α) {a b : α} {r s : Bytes}
    (h : w.encode a ++ r = w.encode b ++ s) : a = b ∧ r = s := by
  have ha := w.decode_encode a r
  rw [h, w.decode_encode b s] at ha
  simp only [Option.some.injEq, Prod.mk.injEq] at ha
  exact ⟨ha.1.symm, ha.2.symm⟩

theorem Wire.encode_injective (w : Wire α) : Function.Injective w.encode := by
  intro a b h
  exact (w.encode_append_inj (r := []) (s := []) (by simpa using h)).1

theorem Wire.decode_encode_nil (w : Wire α) (a : α) : w.decode (w.encode a) = some (a, []) := by
  simpa using w.decode_encode a []

def byte : Wire UInt8 where
  encode b := [b]
  decode
    | [] => none
    | b :: rest => some (b, rest)
  decode_encode _ _ := rfl

def Wire.prod (u : Wire α) (v : Wire β) : Wire (α × β) where
  encode p := u.encode p.1 ++ v.encode p.2
  decode bs :=
    match u.decode bs with
    | none => none
    | some (a, rest) =>
      match v.decode rest with
      | none => none
      | some (b, rest') => some ((a, b), rest')
  decode_encode p rest := by
    simp [List.append_assoc, u.decode_encode, v.decode_encode]

/-- Carry a format along a partial inverse. -/
def Wire.map (w : Wire α) (f : α → Option β) (g : β → α) (h : ∀ b, f (g b) = some b) : Wire β where
  encode b := w.encode (g b)
  decode bs :=
    match w.decode bs with
    | none => none
    | some (a, rest) =>
      match f a with
      | none => none
      | some b => some (b, rest)
  decode_encode b rest := by
    simp [w.decode_encode, h]

/-- Base-128 digits, lowest first, at most `n` of them. -/
def varintBytes : ℕ → ℕ → Bytes
  | 0, _ => []
  | n + 1, v =>
    if v < 128 then [UInt8.ofNat v] else UInt8.ofNat (v % 128 + 128) :: varintBytes n (v / 128)

/-- Read at most `n` digits. The last digit there is room for must not exceed `last`. -/
def takeVarint (last : ℕ) : ℕ → Bytes → Option (ℕ × Bytes)
  | 0, _ => none
  | _ + 1, [] => none
  | n + 1, b :: rest =>
    if b.toNat < 128 then
      if n = 0 ∧ last < b.toNat then none else some (b.toNat, rest)
    else
      match takeVarint last n rest with
      | none => none
      | some (v, rest') => some (b.toNat - 128 + 128 * v, rest')

theorem takeVarint_varintBytes (last : ℕ) (hl : last < 128) (n v : ℕ)
    (hv : v < 128 ^ n * (last + 1)) (rest : Bytes) :
    takeVarint last (n + 1) (varintBytes (n + 1) v ++ rest) = some (v, rest) := by
  induction n generalizing v with
  | zero =>
    have hlt : v < 128 := by omega
    have hb : (UInt8.ofNat v).toNat = v := by
      rw [UInt8.toNat_ofNat']
      omega
    simp only [varintBytes, hlt, if_true, List.cons_append, List.nil_append, takeVarint, hb,
      true_and]
    rw [if_neg (by omega)]
  | succ n ih =>
    rw [varintBytes]
    by_cases hlt : v < 128
    · have hb : (UInt8.ofNat v).toNat = v := by
        rw [UInt8.toNat_ofNat']
        omega
      simp [hlt, takeVarint, hb]
    · have hb : (UInt8.ofNat (v % 128 + 128)).toNat = v % 128 + 128 := by
        rw [UInt8.toNat_ofNat']
        omega
      have hd : v / 128 < 128 ^ n * (last + 1) := by
        apply Nat.div_lt_of_lt_mul
        rw [pow_succ'] at hv
        linarith
      rw [if_neg hlt, List.cons_append, takeVarint, hb, if_neg (by omega), ih _ hd]
      simp only [Option.some.injEq, Prod.mk.injEq, and_true]
      omega

theorem takeVarint_lt {last n v : ℕ} {bs rest : Bytes}
    (h : takeVarint last (n + 1) bs = some (v, rest)) : v < 128 ^ n * (last + 1) := by
  induction n generalizing bs v rest with
  | zero =>
    cases bs with
    | nil => simp [takeVarint] at h
    | cons b bs =>
      simp only [takeVarint, true_and] at h
      split_ifs at h with h₁ h₂
      simp only [Option.some.injEq, Prod.mk.injEq] at h
      omega
  | succ n ih =>
    cases bs with
    | nil => simp [takeVarint] at h
    | cons b bs =>
      rw [takeVarint] at h
      have hpos : 1 ≤ 128 ^ n * (last + 1) := Nat.one_le_iff_ne_zero.mpr (by positivity)
      have hpow : 128 ^ (n + 1) * (last + 1) = 128 * (128 ^ n * (last + 1)) := by
        rw [pow_succ']
        ring
      split_ifs at h with h₁ h₂
      · simp only [Option.some.injEq, Prod.mk.injEq] at h
        omega
      · cases hr : takeVarint last (n + 1) bs with
        | none => simp [hr] at h
        | some p =>
          obtain ⟨w, r⟩ := p
          have hw := ih hr
          have hb := b.toNat_lt
          simp only [hr, Option.some.injEq, Prod.mk.injEq] at h
          omega

/-- Unsigned integers below `128 ^ n * (last + 1)`, in at most `n + 1` digits. -/
def varint (n last : ℕ) (hl : last < 128) : Wire (Fin (128 ^ n * (last + 1))) where
  encode v := varintBytes (n + 1) v
  decode bs :=
    match h : takeVarint last (n + 1) bs with
    | none => none
    | some (v, rest) => some (⟨v, takeVarint_lt h⟩, rest)
  decode_encode v rest := by
    have h := takeVarint_varintBytes last hl n v v.isLt rest
    split
    · next h' => simp [h] at h'
    · next w r h' =>
      rw [h] at h'
      simp only [Option.some.injEq, Prod.mk.injEq] at h'
      obtain ⟨hv, rfl⟩ := h'
      simp [← hv]

def varintU16 : Wire UInt16 :=
  (varint 2 3 (by decide)).map (fun v => some (UInt16.ofNat v)) (fun x => ⟨x.toNat, x.toNat_lt⟩)
    (by intro x; simp)

def varintU32 : Wire UInt32 :=
  (varint 4 15 (by decide)).map (fun v => some (UInt32.ofNat v)) (fun x => ⟨x.toNat, x.toNat_lt⟩)
    (by intro x; simp)

def varintU64 : Wire UInt64 :=
  (varint 9 1 (by decide)).map (fun v => some (UInt64.ofNat v)) (fun x => ⟨x.toNat, x.toNat_lt⟩)
    (by intro x; simp)

/-- Signed integers folded onto the naturals: 0, -1, 1, -2, … -/
def zigzag (x : Int64) : UInt64 :=
  if 0 ≤ x.toInt then UInt64.ofNat (2 * x.toInt.toNat)
  else UInt64.ofNat (2 * (-x.toInt).toNat - 1)

def unzigzag (u : UInt64) : Int64 :=
  if u.toNat % 2 = 0 then Int64.ofInt (u.toNat / 2) else Int64.ofInt (-(u.toNat / 2) - 1)

theorem unzigzag_zigzag (x : Int64) : unzigzag (zigzag x) = x := by
  have h₁ := x.toInt_lt
  have h₂ := x.le_toInt
  apply Int64.toInt_inj.mp
  unfold zigzag
  split_ifs with h
  · have hu : (UInt64.ofNat (2 * x.toInt.toNat)).toNat = 2 * x.toInt.toNat := by
      rw [UInt64.toNat_ofNat']
      omega
    rw [unzigzag, hu, if_pos (by omega), Int64.toInt_ofInt_of_le (by omega) (by omega)]
    omega
  · have hu : (UInt64.ofNat (2 * (-x.toInt).toNat - 1)).toNat = 2 * (-x.toInt).toNat - 1 := by
      rw [UInt64.toNat_ofNat']
      omega
    rw [unzigzag, hu, if_neg (by omega), Int64.toInt_ofInt_of_le (by omega) (by omega)]
    omega

def varintI64 : Wire Int64 :=
  varintU64.map (fun u => some (unzigzag u)) zigzag (by intro x; simp [unzigzag_zigzag])

def takeMany (w : Wire α) : ℕ → Bytes → Option (List α × Bytes)
  | 0, bs => some ([], bs)
  | n + 1, bs =>
    match w.decode bs with
    | none => none
    | some (a, rest) =>
      match takeMany w n rest with
      | none => none
      | some (as, rest') => some (a :: as, rest')

theorem takeMany_flatMap (w : Wire α) (as : List α) (rest : Bytes) :
    takeMany w as.length (as.flatMap w.encode ++ rest) = some (as, rest) := by
  induction as with
  | nil => rfl
  | cons a as ih => simp [takeMany, List.append_assoc, w.decode_encode, ih]

theorem takeMany_length {w : Wire α} {n : ℕ} {bs rest : Bytes} {as : List α}
    (h : takeMany w n bs = some (as, rest)) : as.length = n := by
  induction n generalizing bs as rest with
  | zero =>
    simp only [takeMany, Option.some.injEq, Prod.mk.injEq] at h
    simp [← h.1]
  | succ n ih =>
    simp only [takeMany] at h
    split at h
    · simp at h
    · split at h
      · simp at h
      · next hr =>
        simp only [Option.some.injEq, Prod.mk.injEq] at h
        simp [← h.1, ih hr]

/-- A fixed array: the elements with no length. -/
def array (w : Wire α) (n : ℕ) : Wire {as : List α // as.length = n} where
  encode v := v.1.flatMap w.encode
  decode bs :=
    match h : takeMany w n bs with
    | none => none
    | some (as, rest) => some (⟨as, takeMany_length h⟩, rest)
  decode_encode v rest := by
    obtain ⟨as, rfl⟩ := v
    have h := takeMany_flatMap w as rest
    split
    · next h' => simp [h] at h'
    · next bs r h' =>
      rw [h] at h'
      simp only [Option.some.injEq, Prod.mk.injEq] at h'
      obtain ⟨rfl, rfl⟩ := h'
      rfl

/-- A growable vector: never longer than the largest allocation. -/
abbrev Vec (α : Type) := {as : List α // as.length < 2 ^ 63}

/-- A sequence: its length, then the elements. -/
def seq (w : Wire α) : Wire (Vec α) where
  encode v := varintU64.encode (UInt64.ofNat v.1.length) ++ v.1.flatMap w.encode
  decode bs :=
    match varintU64.decode bs with
    | none => none
    | some (n, rest) =>
      match takeMany w n.toNat rest with
      | none => none
      | some (as, rest') => if h : as.length < 2 ^ 63 then some (⟨as, h⟩, rest') else none
  decode_encode v rest := by
    obtain ⟨as, has⟩ := v
    have hn : (UInt64.ofNat as.length).toNat = as.length := by
      rw [UInt64.toNat_ofNat']
      omega
    simp only [List.append_assoc, varintU64.decode_encode, hn, takeMany_flatMap]
    rw [dif_pos has]

abbrev VecU8 := Vec UInt8

lemma nil_fits : ([] : Bytes).length < 2 ^ 63 := by decide

abbrev Text := {s : String // s.toByteArray.size < 2 ^ 63}

lemma empty_fits : "".toByteArray.size < 2 ^ 63 := by simp

def utf8 (s : String) : Bytes := s.toByteArray.data.toList

theorem fromUTF8_utf8 (s : String) : String.fromUTF8? ⟨(utf8 s).toArray⟩ = some s := by
  simp [String.fromUTF8?, utf8, s.isValidUTF8, String.fromUTF8]

def text : Wire Text :=
  (seq byte).map
    (fun v => (String.fromUTF8? ⟨v.1.toArray⟩).bind fun s =>
      if h : s.toByteArray.size < 2 ^ 63 then some ⟨s, h⟩ else none)
    (fun s => ⟨utf8 s.1, s.2⟩)
    (by
      intro s
      simp only [fromUTF8_utf8, Option.bind_some]
      rw [dif_pos s.2])

/-- An option: a tag byte, then the value if there is one. -/
def option (w : Wire α) : Wire (Option α) where
  encode
    | none => [0]
    | some a => 1 :: w.encode a
  decode
    | [] => none
    | 0 :: rest => some (none, rest)
    | 1 :: rest =>
      match w.decode rest with
      | none => none
      | some (a, rest') => some (some a, rest')
    | _ => none
  decode_encode o rest := by
    cases o with
    | none => rfl
    | some a => simp [w.decode_encode]

theorem varintBytes_length (n v : ℕ) : (varintBytes n v).length ≤ n := by
  induction n generalizing v with
  | zero => simp [varintBytes]
  | succ n ih =>
    rw [varintBytes]
    have h := ih (v / 128)
    split_ifs
    · simp
    · simpa using h

theorem varintU16_length (x : UInt16) : (varintU16.encode x).length ≤ 3 := varintBytes_length 3 _

theorem varintU32_length (x : UInt32) : (varintU32.encode x).length ≤ 5 := varintBytes_length 5 _

theorem varintU64_length (x : UInt64) : (varintU64.encode x).length ≤ 10 := varintBytes_length 10 _

theorem varintI64_length (x : Int64) : (varintI64.encode x).length ≤ 10 := varintBytes_length 10 _

@[simp] theorem flatMap_byte (bs : Bytes) : bs.flatMap byte.encode = bs := by
  simp [byte]

theorem array_byte_length {n : ℕ} (v : {as : Bytes // as.length = n}) :
    ((array byte n).encode v).length = n := by
  simp only [array, flatMap_byte, v.2]

theorem seq_byte_length (v : VecU8) : ((seq byte).encode v).length ≤ 10 + v.1.length := by
  have h := varintU64_length (UInt64.ofNat v.1.length)
  simp only [seq, flatMap_byte, List.length_append]
  omega

theorem text_length (s : Text) : (text.encode s).length ≤ 10 + s.1.toByteArray.size :=
  seq_byte_length ⟨utf8 s.1, s.2⟩

theorem option_length {w : Wire α} {n : ℕ} (o : Option α) (h : ∀ a ∈ o, (w.encode a).length ≤ n) :
    ((option w).encode o).length ≤ 1 + n := by
  cases o with
  | none => simp [option]
  | some a =>
    have ha := h a rfl
    simp only [option, List.length_cons]
    omega

end Protonet.Postcard
