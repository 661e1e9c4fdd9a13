import Mathlib.Data.List.Basic

/-!
# UTF-8 text cut at its newlines

The UTF-8 encoding of a character other than the newline never holds the byte
`0x0A`: a character below `0x80` is its own byte, and every byte of a longer
encoding has its top bit set. So the bytes of an encoded text can be cut at their
newline bytes without looking at the characters, and every piece is the encoding
of a line of the text, valid UTF-8 again.
-/

namespace Utf8

/-- The UTF-8 bytes of a list of characters. -/
def encode (cs : List Char) : List UInt8 := cs.flatMap String.utf8EncodeChar

@[simp] theorem encode_nil : encode [] = [] := rfl

@[simp] theorem encode_cons (c : Char) (cs : List Char) :
    encode (c :: cs) = String.utf8EncodeChar c ++ encode cs := rfl

@[simp] theorem encode_append (a b : List Char) : encode (a ++ b) = encode a ++ encode b :=
  List.flatMap_append

theorem utf8EncodeChar_newline : String.utf8EncodeChar '\n' = [10] := rfl

theorem ten_mem_utf8EncodeChar {c : Char} : (10 : UInt8) ∈ String.utf8EncodeChar c ↔ c = '\n' := by
  have hnl : c = '\n' ↔ c.val.toNat = 10 := by
    constructor
    · rintro rfl
      rfl
    · intro h
      apply Char.ext
      apply UInt32.toNat_inj.mp
      simpa using h
  have hc : c.toNat = c.val.toNat := rfl
  rw [hnl]
  unfold String.utf8EncodeChar
  dsimp only
  split_ifs <;> simp [UInt8.ext_iff] <;> omega

theorem ten_mem_encode {cs : List Char} : (10 : UInt8) ∈ encode cs ↔ '\n' ∈ cs := by
  simp only [encode, List.mem_flatMap, ten_mem_utf8EncodeChar, exists_eq_right]

theorem encode_eq_nil {cs : List Char} : encode cs = [] ↔ cs = [] := by
  cases cs with
  | nil => simp
  | cons c cs => simp

/-- Encoded text that starts with a newline byte starts with the newline. -/
theorem eq_newline_cons_of_ten_cons {rest : List UInt8} {cs : List Char} (h : 10 :: rest = encode cs) :
    ∃ b, cs = '\n' :: b ∧ rest = encode b := by
  cases cs with
  | nil => cases h
  | cons c cs =>
    rw [encode_cons] at h
    obtain ⟨x, xs, hx⟩ := List.exists_cons_of_ne_nil (String.utf8EncodeChar_ne_nil (c := c))
    rw [hx, List.cons_append, List.cons.injEq] at h
    have hc : c = '\n' := ten_mem_utf8EncodeChar.mp (hx ▸ h.1 ▸ List.mem_cons_self)
    subst hc
    rw [utf8EncodeChar_newline, List.cons.injEq] at hx
    rw [← hx.2, List.nil_append] at h
    exact ⟨cs, rfl, h.2⟩

/-- **The bytes before the first newline byte encode the characters before the
first newline**, and the bytes after it the characters after it. -/
theorem eq_encode_of_append_ten {line rest : List UInt8} (hline : (10 : UInt8) ∉ line) :
    ∀ {cs : List Char}, line ++ 10 :: rest = encode cs →
      ∃ a b, cs = a ++ '\n' :: b ∧ line = encode a ∧ rest = encode b
  | [], h => by simp at h
  | c :: cs, h => by
    rw [encode_cons] at h
    have hc : (10 : UInt8) ∈ String.utf8EncodeChar c → c = '\n' := ten_mem_utf8EncodeChar.mp
    rcases List.append_eq_append_iff.mp h with ⟨a', h₁, h₂⟩ | ⟨c', h₁, h₂⟩
    · -- the first character's encoding reaches past the line
      cases a' with
      | nil =>
        rw [List.append_nil] at h₁
        rw [List.nil_append] at h₂
        obtain ⟨b, rfl, hb⟩ := eq_newline_cons_of_ten_cons h₂
        exact ⟨[c], b, rfl, by rw [encode_cons, encode_nil, List.append_nil, h₁], hb⟩
      | cons y ys =>
        rw [List.cons_append, List.cons.injEq] at h₂
        have hnl := hc (h₁ ▸ List.mem_append_right line (h₂.1 ▸ List.mem_cons_self))
        subst hnl
        rw [utf8EncodeChar_newline] at h₁
        cases line with
        | nil =>
          -- the newline is the first character
          rw [List.nil_append, List.cons.injEq] at h₁
          obtain ⟨-, rfl⟩ := h₁
          exact ⟨[], cs, rfl, rfl, by simpa using h₂.2⟩
        | cons x xs =>
          rw [List.cons_append, List.cons.injEq] at h₁
          exact absurd (h₁.1 ▸ List.mem_cons_self) hline
    · -- the line holds the first character's encoding
      obtain ⟨a, b, rfl, ha, hb⟩ :=
        eq_encode_of_append_ten (fun hm => hline (h₁ ▸ List.mem_append_right _ hm)) h₂.symm
      exact ⟨c :: a, b, rfl, by rw [h₁, ha, encode_cons], hb⟩

theorem isValidUTF8_encode (cs : List Char) : ByteArray.IsValidUTF8 ⟨(encode cs).toArray⟩ := by
  refine ⟨cs, ?_⟩
  apply ByteArray.ext
  rw [List.utf8Encode, List.data_toByteArray]
  rfl

theorem toUTF8_data_toList (s : String) : s.toUTF8.data.toList = encode s.toList := by
  rw [String.toUTF8_eq_toByteArray, ← String.utf8Encode_toList, List.utf8Encode, List.data_toByteArray]
  rfl

end Utf8
