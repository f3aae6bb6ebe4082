import Oumigo.Foundation.Base64

/-!
# What base64 encodes to

`b64encode` is the encoder of the standard library.  Decoding undoes it (`a2b_b64encode`),
group by group (`b64encode_take`), and the length of the text and its padding tell how many
bytes it stands for (`b64encode_size`).
-/

namespace Python

/-- The character that six bits are written as. -/
def b64Char (v : Nat) : Char :=
  if v < 26 then Char.ofNat (65 + v)
  else if v < 52 then Char.ofNat (97 + (v - 26))
  else if v < 62 then Char.ofNat (48 + (v - 52))
  else if v = 62 then '+'
  else '/'

/-- `base64.b64encode(data)`. -/
def b64encode : List UInt8 → List Char
  | [] => []
  | [a] => [b64Char (a.toNat / 4), b64Char (a.toNat % 4 * 16), '=', '=']
  | [a, b] =>
      [b64Char (a.toNat / 4), b64Char (a.toNat % 4 * 16 + b.toNat / 16),
        b64Char (b.toNat % 16 * 4), '=']
  | a :: b :: c :: rest =>
      b64Char (a.toNat / 4) :: b64Char (a.toNat % 4 * 16 + b.toNat / 16) ::
        b64Char (b.toNat % 16 * 4 + c.toNat / 64) :: b64Char (c.toNat % 64) :: b64encode rest

example : b64encode [102, 111] = ['Z', 'm', '8', '='] := by
  unfold b64encode
  decide

/-- What a character of the alphabet is. -/
structure Coded (v : Nat) (c : Char) : Prop where
  value : b64Value c = some v
  plain : c ≠ '='
  visible : isSpace c = false
  ascii : c.toNat < 128

theorem b64Char_coded {v : Nat} (small : v < 64) : Coded v (b64Char v) := by
  have table : ∀ v : Fin 64, b64Value (b64Char v) = some v.val ∧ b64Char v ≠ '=' ∧
      isSpace (b64Char v) = false ∧ (b64Char v).toNat < 128 := by decide +kernel
  obtain ⟨value, plain, visible, ascii⟩ := table ⟨v, small⟩
  exact ⟨value, plain, visible, ascii⟩

variable {bytes : List UInt8} {quadPos left pads v : Nat} {c : Char} {rest : List Char}

/-! ## One character -/

theorem a2b_first (coded : Coded v c) :
    a2bBase64 0 left pads (c :: rest) = a2bBase64 1 v 0 rest := by
  simp [a2bBase64, coded.plain, coded.value]

theorem a2b_second (coded : Coded v c) :
    a2bBase64 1 left pads (c :: rest) =
      (a2bBase64 2 (v % 16) 0 rest).map (UInt8.ofNat (left * 4 + v / 16) :: ·) := by
  simp [a2bBase64, coded.plain, coded.value]

theorem a2b_third (coded : Coded v c) :
    a2bBase64 2 left pads (c :: rest) =
      (a2bBase64 3 (v % 4) 0 rest).map (UInt8.ofNat (left * 16 + v / 4) :: ·) := by
  simp [a2bBase64, coded.plain, coded.value]

theorem a2b_fourth (coded : Coded v c) :
    a2bBase64 3 left pads (c :: rest) =
      (a2bBase64 0 0 0 rest).map (UInt8.ofNat (left * 64 + v) :: ·) := by
  simp [a2bBase64, coded.plain, coded.value]

theorem a2b_two_pads : a2bBase64 2 left 0 ['=', '='] = some [] := by
  simp [a2bBase64]

theorem a2b_one_pad : a2bBase64 3 left 0 ['='] = some [] := by
  simp [a2bBase64]

/-! ## The text -/

theorem byte_lt (b : UInt8) : b.toNat < 256 := b.toNat_lt

theorem ofNat_eq {n : Nat} {b : UInt8} (same : n = b.toNat) : UInt8.ofNat n = b := by
  rw [same, UInt8.ofNat_toNat]

/-- **Decoding undoes encoding.** -/
theorem a2b_b64encode : a2bBase64 0 0 0 (b64encode bytes) = some bytes := by
  induction bytes using b64encode.induct with
  | case1 => rfl
  | case2 a =>
    have small := byte_lt a
    rw [b64encode, a2b_first (b64Char_coded (by omega)), a2b_second (b64Char_coded (by omega)),
      a2b_two_pads, Option.map_some, ofNat_eq (b := a) (by omega)]
  | case3 a b =>
    have small := byte_lt a
    have small' := byte_lt b
    rw [b64encode, a2b_first (b64Char_coded (by omega)), a2b_second (b64Char_coded (by omega)),
      a2b_third (b64Char_coded (by omega)), a2b_one_pad, Option.map_some, Option.map_some,
      ofNat_eq (b := a) (by omega), ofNat_eq (b := b) (by omega)]
  | case4 a b c rest ih =>
    have small := byte_lt a
    have small' := byte_lt b
    have small'' := byte_lt c
    rw [b64encode, a2b_first (b64Char_coded (by omega)), a2b_second (b64Char_coded (by omega)),
      a2b_third (b64Char_coded (by omega)), a2b_fourth (b64Char_coded (by omega)), ih,
      Option.map_some, Option.map_some, Option.map_some,
      ofNat_eq (b := a) (by omega), ofNat_eq (b := b) (by omega), ofNat_eq (b := c) (by omega)]

/-- A whole number of groups is the encoding of what they stand for. -/
theorem b64encode_take (groups : Nat) :
    (b64encode bytes).take (4 * groups) = b64encode (bytes.take (3 * groups)) := by
  induction groups generalizing bytes with
  | zero => rfl
  | succ groups ih =>
    rw [Nat.mul_succ, Nat.mul_succ]
    cases bytes with
    | nil => simp [b64encode]
    | cons a rest =>
      cases rest with
      | nil => simp [b64encode]
      | cons b rest =>
        cases rest with
        | nil => simp [b64encode]
        | cons c rest => simp [b64encode, ih]

theorem b64encode_length (bytes : List UInt8) : (b64encode bytes).length % 4 = 0 := by
  induction bytes using b64encode.induct with
  | case1 => rfl
  | case2 a => simp [b64encode]
  | case3 a b => simp [b64encode]
  | case4 a b c rest ih =>
    simp only [b64encode, List.length_cons]
    omega

theorem b64encode_ne_nil {b : UInt8} {more : List UInt8} : b64encode (b :: more) ≠ [] := by
  cases more with
  | nil => simp [b64encode]
  | cons b' more =>
    cases more with
    | nil => simp [b64encode]
    | cons b'' more => simp [b64encode]

/-- **The size of what a text encodes**: three bytes for four characters, less the padding. -/
theorem b64encode_size (bytes : List UInt8) :
    (b64encode bytes).length / 4 * 3 =
      bytes.length + ((b64encode bytes).drop ((b64encode bytes).length - 2)).count '=' := by
  induction bytes using b64encode.induct with
  | case1 => rfl
  | case2 a => simp [b64encode]
  | case3 a b =>
    have plain := (b64Char_coded (v := b.toNat % 16 * 4) (by omega)).plain
    simp [b64encode, plain]
  | case4 a b c rest ih =>
    have size := b64encode_length rest
    cases rest with
    | nil =>
      have small := byte_lt c
      have third := (b64Char_coded (v := b.toNat % 16 * 4 + c.toNat / 64) (by omega)).plain
      have fourth := (b64Char_coded (v := c.toNat % 64) (by omega)).plain
      simp [b64encode, third, fourth]
    | cons d rest =>
      have some : 0 < (b64encode (d :: rest)).length := List.length_pos_iff.mpr b64encode_ne_nil
      -- the two characters at the end are those of the rest
      have last : (b64encode (d :: rest)).length + 1 + 1 + 1 + 1 - 2 =
          (b64encode (d :: rest)).length - 2 + 1 + 1 + 1 + 1 := by omega
      rw [b64encode]
      simp only [List.length_cons, last, List.drop_succ_cons] at ih ⊢
      omega

/-- What a text consists of. -/
theorem b64encode_chars (member : c ∈ b64encode bytes) : isSpace c = false ∧ c.toNat < 128 := by
  have coded : ∀ {v : Nat}, v < 64 → isSpace (b64Char v) = false ∧ (b64Char v).toNat < 128 :=
    fun small => ⟨(b64Char_coded small).visible, (b64Char_coded small).ascii⟩
  have padding : isSpace '=' = false ∧ '='.toNat < 128 := by decide
  induction bytes using b64encode.induct with
  | case1 => simp [b64encode] at member
  | case2 a =>
    have small := byte_lt a
    simp only [b64encode, List.mem_cons, List.not_mem_nil, or_false] at member
    rcases member with rfl | rfl | rfl | rfl
    · exact coded (by omega)
    · exact coded (by omega)
    · exact padding
    · exact padding
  | case3 a b =>
    have small := byte_lt a
    have small' := byte_lt b
    simp only [b64encode, List.mem_cons, List.not_mem_nil, or_false] at member
    rcases member with rfl | rfl | rfl | rfl
    · exact coded (by omega)
    · exact coded (by omega)
    · exact coded (by omega)
    · exact padding
  | case4 a b c' rest ih =>
    have small := byte_lt a
    have small' := byte_lt b
    have small'' := byte_lt c'
    simp only [b64encode, List.mem_cons] at member
    rcases member with rfl | rfl | rfl | rfl | later
    · exact coded (by omega)
    · exact coded (by omega)
    · exact coded (by omega)
    · exact coded (by omega)
    · exact ih later

end Python
