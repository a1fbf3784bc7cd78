import Mathlib.Data.List.Infix
import ShaderInterface.Proofs.Text.Identifier

/-!
# Offsets in bytes

An offset in a text counts the bytes of its UTF-8 form. A character of ASCII is one byte below 128,
every other character consists of bytes from 128 on; so the bytes of an ASCII text stand in another
text only where its characters stand, between two characters (`exists_eq_append_of_bytes_prefix`).
-/

namespace ShaderInterface.Text

variable {c : Char} {b : UInt8} {s t token : List Char}

/-! ## Bytes -/

/-- The bytes of a text in UTF-8. -/
def bytes (s : List Char) : List UInt8 := s.flatMap String.utf8EncodeChar

@[simp]
theorem bytes_nil : bytes [] = [] := rfl

@[simp]
theorem bytes_cons (c : Char) (s : List Char) :
    bytes (c :: s) = String.utf8EncodeChar c ++ bytes s := List.flatMap_cons

@[simp]
theorem bytes_append (s t : List Char) : bytes (s ++ t) = bytes s ++ bytes t :=
  List.flatMap_append

/-- A character of ASCII is the byte of its code. -/
theorem encode_of_ascii (h : c.toNat < 128) : String.utf8EncodeChar c = [c.val.toUInt8] := by
  apply String.utf8EncodeChar_eq_singleton
  rw [Char.utf8Size_eq_one_iff, UInt32.le_iff_toNat_le]
  exact Nat.le_of_lt_succ h

theorem toNat_toUInt8_of_ascii (h : c.toNat < 128) : c.val.toUInt8.toNat = c.toNat := by
  have code : c.val.toNat = c.toNat := rfl
  rw [UInt32.toNat_toUInt8]
  omega

/-- A byte with its highest bit set is none of ASCII. -/
theorem le_toNat_or (b : UInt8) {mark : UInt8} (h : 128 ≤ mark.toNat) :
    128 ≤ (b ||| mark).toNat := by
  rw [UInt8.toNat_or]
  exact h.trans Nat.right_le_or

/-- The bytes of other characters are none of ASCII. -/
theorem le_toNat_of_mem_encode (h : 128 ≤ c.toNat) (hb : b ∈ String.utf8EncodeChar c) :
    128 ≤ b.toNat := by
  have size : c.utf8Size ≠ 1 := by
    rw [ne_eq, Char.utf8Size_eq_one_iff, UInt32.le_iff_toNat_le]
    exact Nat.not_le.mpr h
  have marks : 128 ≤ (0x80 : UInt8).toNat ∧ 128 ≤ (0xc0 : UInt8).toNat ∧
      128 ≤ (0xe0 : UInt8).toNat ∧ 128 ≤ (0xf0 : UInt8).toNat := by decide
  obtain ⟨next, two, three, four⟩ := marks
  rcases Char.utf8Size_eq c with one | eq | eq | eq
  · exact absurd one size
  · rw [String.utf8EncodeChar_eq_cons_cons eq] at hb
    simp only [List.mem_cons, List.not_mem_nil, or_false] at hb
    rcases hb with rfl | rfl
    exacts [le_toNat_or _ two, le_toNat_or _ next]
  · rw [String.utf8EncodeChar_eq_cons_cons_cons eq] at hb
    simp only [List.mem_cons, List.not_mem_nil, or_false] at hb
    rcases hb with rfl | rfl | rfl
    exacts [le_toNat_or _ three, le_toNat_or _ next, le_toNat_or _ next]
  · rw [String.utf8EncodeChar_eq_cons_cons_cons_cons eq] at hb
    simp only [List.mem_cons, List.not_mem_nil, or_false] at hb
    rcases hb with rfl | rfl | rfl | rfl
    exacts [le_toNat_or _ four, le_toNat_or _ next, le_toNat_or _ next, le_toNat_or _ next]

theorem bytes_eq_nil_iff : bytes s = [] ↔ s = [] := by
  cases s with
  | nil => simp
  | cons c s => simp

/-! ## Identifier characters -/

/-- The byte is an identifier character. -/
def isIdentByte (b : UInt8) : Bool := isIdentChar (Char.ofNat b.toNat)

theorem toNat_lt_of_isIdentChar (h : isIdentChar c) : c.toNat < 128 := by
  rcases isIdentStart_or_isDigit h with start | digit
  · have := toNat_of_isIdentStart start
    omega
  · obtain ⟨-, high⟩ : 48 ≤ c.toNat ∧ c.toNat ≤ 57 := Char.isDigit_iff_toNat.mp digit
    omega

/-- A byte is an identifier character exactly when the character to which it belongs is one. -/
theorem isIdentByte_of_mem_encode (hb : b ∈ String.utf8EncodeChar c) :
    isIdentByte b = isIdentChar c := by
  by_cases ascii : c.toNat < 128
  · rw [encode_of_ascii ascii, List.mem_singleton] at hb
    rw [isIdentByte, hb, toNat_toUInt8_of_ascii ascii, Char.ofNat_toNat]
  · have high := le_toNat_of_mem_encode (Nat.not_lt.mp ascii) hb
    have low : b.toNat < 256 := b.toNat_lt
    have valid : b.toNat.isValidChar := .inl (by omega)
    have code : (Char.ofNat b.toNat).toNat = b.toNat := by
      rw [Char.ofNat, dif_pos valid]
      rfl
    have other : isIdentByte b = false := by
      rw [isIdentByte, Bool.eq_false_iff]
      intro ident
      have := toNat_lt_of_isIdentChar ident
      omega
    rw [other, eq_comm, Bool.eq_false_iff]
    exact fun ident => ascii (toNat_lt_of_isIdentChar ident)

/-! ## Offsets -/

/-- The offset lies between two characters, or at an end of the text. -/
def IsBoundaryOffset (s : List Char) (i : Nat) : Prop :=
  ∃ before, before <+: s ∧ (bytes before).length = i

theorem isBoundaryOffset_append (s t : List Char) :
    IsBoundaryOffset (s ++ t) (bytes s).length := ⟨s, List.prefix_append s t, rfl⟩

/-- Of two parts in front, one is in front of the other when it has no more bytes. -/
theorem prefix_of_length_bytes_le {a a' : List Char} (ha : a <+: s) (ha' : a' <+: s)
    (le : (bytes a).length ≤ (bytes a').length) : a <+: a' := by
  rcases List.prefix_or_prefix_of_prefix ha ha' with h | ⟨more, rfl⟩
  · exact h
  · have none : bytes more = [] := by
      rw [bytes_append, List.length_append] at le
      exact List.length_eq_zero_iff.mp (by omega)
    rw [bytes_eq_nil_iff.mp none, List.append_nil]

variable (ascii : ∀ c ∈ token, c.toNat < 128)
include ascii

/-- A text begins with the characters of an ASCII text when it begins with its bytes. -/
theorem prefix_of_bytes_prefix (h : bytes token <+: bytes s) : token <+: s := by
  induction token generalizing s with
  | nil => exact List.nil_prefix
  | cons c token ih =>
    obtain ⟨first, others⟩ := List.forall_mem_cons.mp ascii
    rw [bytes_cons, encode_of_ascii first, List.singleton_append] at h
    cases s with
    | nil => simp at h
    | cons d s =>
      have byte : ∃ more, String.utf8EncodeChar d = c.val.toUInt8 :: more := by
        obtain ⟨d', more, eq⟩ := List.exists_cons_of_ne_nil String.utf8EncodeChar_ne_nil
        rw [bytes_cons, eq, List.cons_append, List.cons_prefix_cons] at h
        exact ⟨more, h.1 ▸ eq⟩
      obtain ⟨more, eq⟩ := byte
      have low : d.toNat < 128 := by
        by_contra high
        have := le_toNat_of_mem_encode (Nat.not_lt.mp high) (eq ▸ List.mem_cons_self)
        rw [toNat_toUInt8_of_ascii first] at this
        omega
      have same : d.val.toUInt8 = c.val.toUInt8 := by
        rw [encode_of_ascii low] at eq
        exact (List.cons.inj eq).1
      have code : d.toNat = c.toNat := by
        rw [← toNat_toUInt8_of_ascii low, same, toNat_toUInt8_of_ascii first]
      obtain rfl : d = c := by
        rw [← Char.ofNat_toNat d, code, Char.ofNat_toNat]
      rw [bytes_cons, encode_of_ascii low, List.singleton_append, List.cons_prefix_cons] at h
      exact List.cons_prefix_cons.mpr ⟨rfl, ih others h.2⟩

/-- **The bytes of an ASCII text stand only where its characters stand.** -/
theorem exists_eq_append_of_bytes_prefix (ne : token ≠ []) {i : Nat}
    (h : bytes token <+: (bytes s).drop i) :
    ∃ before after, s = before ++ token ++ after ∧ (bytes before).length = i := by
  induction s generalizing i with
  | nil =>
    rw [bytes_nil, List.drop_nil, List.prefix_nil, bytes_eq_nil_iff] at h
    exact absurd h ne
  | cons d s ih =>
    rcases Nat.eq_zero_or_pos i with rfl | pos
    · obtain ⟨after, eq⟩ := prefix_of_bytes_prefix ascii h
      exact ⟨[], after, eq.symm, rfl⟩
    rw [bytes_cons, List.drop_append] at h
    by_cases within : i < (String.utf8EncodeChar d).length
    · -- inside a character stands no byte of ASCII
      obtain ⟨c, token, rfl⟩ := List.exists_cons_of_ne_nil ne
      have first := (List.forall_mem_cons.mp ascii).1
      obtain ⟨b, more, eq⟩ := List.exists_cons_of_length_pos
        (show 0 < ((String.utf8EncodeChar d).drop i).length by rw [List.length_drop]; omega)
      have member : b ∈ String.utf8EncodeChar d :=
        List.mem_of_mem_drop (eq ▸ List.mem_cons_self)
      rw [eq, bytes_cons, encode_of_ascii first, List.singleton_append, List.cons_append,
        List.cons_prefix_cons] at h
      have high : 128 ≤ d.toNat := by
        by_contra low
        rw [encode_of_ascii (Nat.not_le.mp low), List.length_singleton] at within
        omega
      have := le_toNat_of_mem_encode high member
      rw [← h.1, toNat_toUInt8_of_ascii first] at this
      omega
    · rw [List.drop_eq_nil_of_le (Nat.not_lt.mp within), List.nil_append] at h
      obtain ⟨before, after, rfl, length⟩ := ih h
      exact ⟨d :: before, after, rfl, by rw [bytes_cons, List.length_append]; omega⟩

end ShaderInterface.Text
