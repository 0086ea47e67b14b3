/-!
Texts compare as the bytes of their encodings.
-/

namespace Phrasebook.Text

def bytes (text : String) : List UInt8 :=
  text.toUTF8.data.toList

theorem bytes_eq (text : String) : bytes text = text.toList.flatMap String.utf8EncodeChar := by
  have encoded : text.toUTF8 = text.toList.utf8Encode := by
    rw [String.toUTF8_eq_toByteArray]
    exact String.utf8Encode_toList.symm
  rw [bytes, encoded, List.utf8Encode]
  simp

theorem bytes_injective {first second : String} (same : bytes first = bytes second) :
    first = second := by
  have arrays : first.toByteArray = second.toByteArray :=
    ByteArray.ext (Array.toList_inj.1 same)
  exact String.toByteArray_inj.1 arrays

theorem byte_cons_lt {a b : Nat} (first second : List UInt8) (small : a < 256) (small' : b < 256) :
    UInt8.ofNat a :: first < UInt8.ofNat b :: second ↔ a < b ∨ a = b ∧ first < second := by
  rw [List.cons_lt_cons_iff, UInt8.lt_iff_toNat_lt, ← UInt8.toNat_inj,
    UInt8.toNat_ofNat_of_lt' small, UInt8.toNat_ofNat_of_lt' small']

/-- An encoding has one byte to four, of which the first tells how many there are. -/
theorem utf8EncodeChar_cases (c : Char) :
    (c.toNat ≤ 0x7f ∧ String.utf8EncodeChar c = [UInt8.ofNat c.toNat]) ∨
    (0x7f < c.toNat ∧ c.toNat ≤ 0x7ff ∧ String.utf8EncodeChar c =
      [UInt8.ofNat (c.toNat / 64 + 0xc0), UInt8.ofNat (c.toNat % 64 + 0x80)]) ∨
    (0x7ff < c.toNat ∧ c.toNat ≤ 0xffff ∧ String.utf8EncodeChar c =
      [UInt8.ofNat (c.toNat / 4096 + 0xe0), UInt8.ofNat (c.toNat / 64 % 64 + 0x80),
        UInt8.ofNat (c.toNat % 64 + 0x80)]) ∨
    (0xffff < c.toNat ∧ c.toNat < 0x110000 ∧ String.utf8EncodeChar c =
      [UInt8.ofNat (c.toNat / 262144 + 0xf0), UInt8.ofNat (c.toNat / 4096 % 64 + 0x80),
        UInt8.ofNat (c.toNat / 64 % 64 + 0x80), UInt8.ofNat (c.toNat % 64 + 0x80)]) := by
  have bound : c.toNat < 0x110000 := by
    rcases c.valid with low | high
    · exact Nat.lt_trans low (by decide)
    · exact high.2
  have encoded : String.utf8EncodeChar c =
      if c.toNat ≤ 0x7f then [UInt8.ofNat c.toNat]
      else if c.toNat ≤ 0x7ff then
        [UInt8.ofNat (c.toNat / 64 % 0x20 + 0xc0), UInt8.ofNat (c.toNat % 64 + 0x80)]
      else if c.toNat ≤ 0xffff then
        [UInt8.ofNat (c.toNat / 4096 % 0x10 + 0xe0), UInt8.ofNat (c.toNat / 64 % 64 + 0x80),
          UInt8.ofNat (c.toNat % 64 + 0x80)]
      else
        [UInt8.ofNat (c.toNat / 262144 % 8 + 0xf0), UInt8.ofNat (c.toNat / 4096 % 64 + 0x80),
          UInt8.ofNat (c.toNat / 64 % 64 + 0x80), UInt8.ofNat (c.toNat % 64 + 0x80)] := rfl
  by_cases one : c.toNat ≤ 0x7f
  · exact .inl ⟨one, encoded.trans (if_pos one)⟩
  rw [if_neg one] at encoded
  by_cases two : c.toNat ≤ 0x7ff
  · rw [if_pos two, Nat.mod_eq_of_lt (by omega)] at encoded
    exact .inr (.inl ⟨by omega, two, encoded⟩)
  rw [if_neg two] at encoded
  by_cases three : c.toNat ≤ 0xffff
  · rw [if_pos three, Nat.mod_eq_of_lt (show c.toNat / 4096 < 0x10 by omega)] at encoded
    exact .inr (.inr (.inl ⟨by omega, three, encoded⟩))
  · rw [if_neg three, Nat.mod_eq_of_lt (show c.toNat / 262144 < 8 by omega)] at encoded
    exact .inr (.inr (.inr ⟨by omega, bound, encoded⟩))

/-- The character of the lower code has the lower encoding, whatever follows. -/
theorem utf8EncodeChar_lt {c d : Char} (below : c < d) (first second : List UInt8) :
    String.utf8EncodeChar c ++ first < String.utf8EncodeChar d ++ second := by
  have codes : c.toNat < d.toNat := below
  -- By the lengths of the two encodings: the first bytes differ in order, or some later ones do.
  rcases utf8EncodeChar_cases c with ⟨_, one⟩ | ⟨_, _, one⟩ | ⟨_, _, one⟩ | ⟨_, _, one⟩ <;>
  rcases utf8EncodeChar_cases d with ⟨_, other⟩ | ⟨_, _, other⟩ | ⟨_, _, other⟩ | ⟨_, _, other⟩ <;>
  rw [one, other] <;>
  simp (disch := omega) only [List.cons_append, List.nil_append, byte_cons_lt] <;>
  omega

theorem flatMap_utf8EncodeChar_lt {first second : List Char} (below : first < second) :
    first.flatMap String.utf8EncodeChar < second.flatMap String.utf8EncodeChar := by
  induction first generalizing second with
  | nil =>
    cases second with
    | nil => exact absurd below (List.not_lt_nil [])
    | cons d second =>
      rw [List.flatMap_nil, List.flatMap_cons]
      cases start : String.utf8EncodeChar d with
      | nil => exact absurd start String.utf8EncodeChar_ne_nil
      | cons byte others => exact List.nil_lt_cons byte _
  | cons c first ih =>
    cases second with
    | nil => exact absurd below (List.not_lt_nil (c :: first))
    | cons d second =>
      rw [List.flatMap_cons, List.flatMap_cons]
      rcases List.cons_lt_cons_iff.1 below with lower | ⟨same, later⟩
      · exact utf8EncodeChar_lt lower _ _
      · subst same
        exact List.append_left_lt (ih later)

/-- The order of texts is the order of their bytes. -/
theorem bytes_lt {first second : String} (below : compare first second = .lt) :
    bytes first < bytes second := by
  have lower : first < second := compareOfLessAndEq_eq_lt.1 below
  rw [bytes_eq, bytes_eq]
  exact flatMap_utf8EncodeChar_lt lower

theorem bytes_le_antisymm {first second : String} (le : bytes first ≤ bytes second)
    (ge : bytes second ≤ bytes first) : first = second :=
  bytes_injective (List.le_antisymm le ge)

end Phrasebook.Text
