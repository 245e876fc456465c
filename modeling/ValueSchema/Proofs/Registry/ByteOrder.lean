import ValueSchema.Registry

/-! # The order of names, byte by byte

A character that takes more bytes begins with a greater byte, and those that take as many are
compared digit by digit. -/

namespace ValueSchema

/-- The bytes of a text in UTF-8. -/
def utf8Bytes (text : String) : List UInt8 := text.toUTF8.data.toList

theorem utf8Bytes_eq (text : String) :
    utf8Bytes text = text.toList.flatMap String.utf8EncodeChar := by
  rw [utf8Bytes, String.toUTF8_eq_toByteArray, ← String.utf8Encode_toList, List.utf8Encode,
    List.toList_data_toByteArray]

/-- Bytes are compared as the numbers that they stand for. -/
theorem ofNat_cons_lt {m n : Nat} (hm : m < 256) (hn : n < 256) {xs ys : List UInt8}
    (h : m < n ∨ m = n ∧ xs < ys) : UInt8.ofNat m :: xs < UInt8.ofNat n :: ys := by
  rw [List.cons_lt_cons_iff, UInt8.lt_iff_toNat_lt, UInt8.toNat_ofNat_of_lt' hm,
    UInt8.toNat_ofNat_of_lt' hn]
  exact h.imp_right fun h => ⟨congrArg UInt8.ofNat h.1, h.2⟩

/-- The bytes of characters tell them apart before either is over. -/
theorem utf8EncodeChar_append_lt {c c' : Char} (h : c < c') (rest rest' : List UInt8) :
    String.utf8EncodeChar c ++ rest < String.utf8EncodeChar c' ++ rest' := by
  have hlt : c.val.toNat < c'.val.toNat := h
  have hmax : c'.val.toNat < 0x110000 := by
    have hvalid := c'.valid
    unfold UInt32.isValidChar Nat.isValidChar at hvalid
    omega
  unfold String.utf8EncodeChar
  dsimp only
  generalize c.val.toNat = v, c'.val.toNat = w at hlt hmax
  -- A greater first byte settles it, unless both characters take as many bytes.
  split
  · split
    · exact ofNat_cons_lt (by omega) (by omega) (.inl hlt)
    · split
      · exact ofNat_cons_lt (by omega) (by omega) (.inl (by omega))
      · split <;> exact ofNat_cons_lt (by omega) (by omega) (.inl (by omega))
  · rw [if_neg (by omega : ¬w ≤ 0x7f)]
    split
    · split
      · have hdigits : v / 64 < w / 64 ∨ v / 64 = w / 64 ∧ v % 64 < w % 64 := by omega
        refine ofNat_cons_lt (by omega) (by omega) (hdigits.imp (by omega) fun h => ⟨by omega, ?_⟩)
        exact ofNat_cons_lt (by omega) (by omega) (.inl (by omega))
      · split <;> exact ofNat_cons_lt (by omega) (by omega) (.inl (by omega))
    · rw [if_neg (by omega : ¬w ≤ 0x7ff)]
      split
      · split
        · have hdigits : v / 4096 < w / 4096 ∨ v / 4096 = w / 4096 ∧
              (v / 64 % 64 < w / 64 % 64 ∨ v / 64 % 64 = w / 64 % 64 ∧ v % 64 < w % 64) := by
            omega
          refine ofNat_cons_lt (by omega) (by omega)
            (hdigits.imp (by omega) fun h => ⟨by omega, ?_⟩)
          refine ofNat_cons_lt (by omega) (by omega) (h.2.imp (by omega) fun h => ⟨by omega, ?_⟩)
          exact ofNat_cons_lt (by omega) (by omega) (.inl (by omega))
        · exact ofNat_cons_lt (by omega) (by omega) (.inl (by omega))
      · rw [if_neg (by omega : ¬w ≤ 0xffff)]
        have hdigits : v / 262144 < w / 262144 ∨ v / 262144 = w / 262144 ∧
            (v / 4096 % 64 < w / 4096 % 64 ∨ v / 4096 % 64 = w / 4096 % 64 ∧
              (v / 64 % 64 < w / 64 % 64 ∨ v / 64 % 64 = w / 64 % 64 ∧ v % 64 < w % 64)) := by
          omega
        refine ofNat_cons_lt (by omega) (by omega) (hdigits.imp (by omega) fun h => ⟨by omega, ?_⟩)
        refine ofNat_cons_lt (by omega) (by omega) (h.2.imp (by omega) fun h => ⟨by omega, ?_⟩)
        refine ofNat_cons_lt (by omega) (by omega) (h.2.imp (by omega) fun h => ⟨by omega, ?_⟩)
        exact ofNat_cons_lt (by omega) (by omega) (.inl (by omega))

/-- Texts in the order of their characters are in the order of their bytes. -/
theorem utf8Bytes_lt {left right : String} (h : left < right) :
    utf8Bytes left < utf8Bytes right := by
  rw [utf8Bytes_eq, utf8Bytes_eq]
  have hchars : List.Lex (· < ·) left.toList right.toList := h
  generalize left.toList = cs, right.toList = cs' at hchars
  induction hchars with
  | @nil c cs =>
      rw [List.flatMap_nil, List.flatMap_cons]
      cases hencoded : String.utf8EncodeChar c with
      | nil => exact absurd hencoded String.utf8EncodeChar_ne_nil
      | cons b bs => exact List.nil_lt_cons b _
  | rel h => exact utf8EncodeChar_append_lt h _ _
  | @cons c cs cs' _ ih =>
      rw [List.flatMap_cons, List.flatMap_cons]
      exact List.append_left_lt ih

end ValueSchema
