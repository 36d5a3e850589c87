import Chargeback.Proofs.DigitText
import Chargeback.Text.Utf8

/-!
# The bytes of characters

A text is encoded character by character. A character of ASCII is one byte, its code; every byte of
any other character is beyond ASCII. So a byte of ASCII in an encoded text always is a character, and
never a part of one.
-/

namespace Chargeback.Text

/-- The bytes of characters. -/
def bytes (cs : List Char) : List UInt8 := cs.flatMap String.utf8EncodeChar

theorem encode_ofList (cs : List Char) : encode (String.ofList cs) = bytes cs := by
  have hencode : (String.ofList cs).toUTF8 = (bytes cs).toByteArray := String.toByteArray_ofList
  rw [encode, hencode, List.data_toByteArray]

theorem encode_eq_bytes (s : String) : encode s = bytes s.toList := by
  rw [← encode_ofList, String.ofList_toList]

@[simp] theorem bytes_nil : bytes [] = [] := rfl

theorem bytes_append (cs ds : List Char) : bytes (cs ++ ds) = bytes cs ++ bytes ds :=
  List.flatMap_append

theorem bytes_cons (c : Char) (cs : List Char) :
    bytes (c :: cs) = String.utf8EncodeChar c ++ bytes cs := rfl

/-! ## One character -/

theorem utf8EncodeChar_of_ascii {c : Char} (h : c.toNat < 0x80) :
    String.utf8EncodeChar c = [UInt8.ofNat c.toNat] := by
  have hle : c.val.toNat ≤ 127 := Nat.le_of_lt_succ h
  simp only [String.utf8EncodeChar, if_pos hle]
  rfl

theorem le_of_mem_utf8EncodeChar {c : Char} (h : 0x80 ≤ c.toNat) {b : UInt8}
    (hb : b ∈ String.utf8EncodeChar c) : 0x80 ≤ b.toNat := by
  have hgt : ¬c.val.toNat ≤ 127 := by
    have hsame : c.toNat = c.val.toNat := rfl
    omega
  unfold String.utf8EncodeChar at hb
  simp only [if_neg hgt] at hb
  split at hb
  · simp only [List.mem_cons, List.not_mem_nil, or_false] at hb
    rcases hb with rfl | rfl <;> simp only [UInt8.toNat_ofNat'] <;> omega
  · split at hb
    · simp only [List.mem_cons, List.not_mem_nil, or_false] at hb
      rcases hb with rfl | rfl | rfl <;> simp only [UInt8.toNat_ofNat'] <;> omega
    · simp only [List.mem_cons, List.not_mem_nil, or_false] at hb
      rcases hb with rfl | rfl | rfl | rfl <;> simp only [UInt8.toNat_ofNat'] <;> omega

/-- A byte of ASCII among the bytes of characters is one of the characters. -/
theorem mem_of_mem_bytes {cs : List Char} {b : UInt8} (hb : b ∈ bytes cs) (hascii : b.toNat < 0x80) :
    ∃ c ∈ cs, c.toNat = b.toNat := by
  obtain ⟨c, hc, hbc⟩ := List.mem_flatMap.1 hb
  by_cases h : c.toNat < 0x80
  · rw [utf8EncodeChar_of_ascii h, List.mem_singleton] at hbc
    refine ⟨c, hc, ?_⟩
    rw [hbc, UInt8.toNat_ofNat']
    omega
  · have hbeyond := le_of_mem_utf8EncodeChar (by omega) hbc
    omega

/-- The bytes of characters of ASCII are their codes. -/
theorem bytes_of_ascii {cs : List Char} (h : ∀ c ∈ cs, c.toNat < 0x80) :
    bytes cs = cs.map fun c => UInt8.ofNat c.toNat := by
  induction cs with
  | nil => rfl
  | cons c cs ih =>
      rw [bytes_cons, utf8EncodeChar_of_ascii (h c List.mem_cons_self),
        ih fun d hd => h d (List.mem_cons_of_mem _ hd)]
      rfl

end Chargeback.Text
