import Keybinds.Chain.Bytes
import Keybinds.Proofs.Chain.Cursor
import Keybinds.Proofs.Text.Strip
import Mathlib.Data.List.Basic

/-!
# Encoded texts

The UTF-8 form of a text, seen through its characters. An ASCII character is one byte of its own,
and all bytes of another character are beyond ASCII. So each byte `Shows` its character: the two
agree on which ASCII character they are. Every test that the scan over bytes makes is for an ASCII
character; what it asks of the byte at the start of a character, it asks of the character.
-/

namespace Keybinds.Chain

open Text (isAsciiBlank)

/-! ## Bytes of characters -/

/-- The bytes of a text. -/
def encoded (cs : List Char) : List UInt8 := cs.flatMap String.utf8EncodeChar

@[simp] theorem encoded_nil : encoded [] = [] := rfl

@[simp] theorem encoded_cons (c : Char) (cs : List Char) :
    encoded (c :: cs) = String.utf8EncodeChar c ++ encoded cs := rfl

@[simp] theorem encoded_append (cs ds : List Char) :
    encoded (cs ++ ds) = encoded cs ++ encoded ds := List.flatMap_append

def IsAscii (c : Char) : Prop := c.toNat < 128

instance (c : Char) : Decidable (IsAscii c) := inferInstanceAs (Decidable (_ < _))

theorem IsQuote.isAscii {c : Char} (h : IsQuote c) : IsAscii c := by
  rcases h with rfl | rfl <;> decide

theorem toNat_byte {c : Char} (h : IsAscii c) : (byte c).toNat = c.toNat := by
  have h : c.toNat < 128 := h
  show c.toNat % 256 = c.toNat
  omega

theorem byte_inj {c d : Char} (hc : IsAscii c) (hd : IsAscii d) : byte c = byte d ↔ c = d := by
  rw [← UInt8.toNat_inj, toNat_byte hc, toNat_byte hd, Char.toNat_inj]

theorem encodeChar_of_isAscii {c : Char} (h : IsAscii c) : String.utf8EncodeChar c = [byte c] := by
  have h : c.val.toNat ≤ 127 := Nat.le_of_lt_succ h
  unfold String.utf8EncodeChar
  simp only [h, if_true]
  rfl

/-- All bytes of a character beyond ASCII are beyond ASCII. -/
theorem le_of_mem_encodeChar {c : Char} (h : ¬ IsAscii c) {b : UInt8}
    (hb : b ∈ String.utf8EncodeChar c) : 128 ≤ b.toNat := by
  have h : ¬ c.val.toNat ≤ 127 := fun hle => h (Nat.lt_succ_of_le hle)
  unfold String.utf8EncodeChar at hb
  simp only [h, if_false] at hb
  split_ifs at hb <;> simp only [List.mem_cons, List.not_mem_nil, or_false] at hb <;>
    rcases hb with rfl | rfl | rfl | rfl <;> simp only [UInt8.toNat_ofNat'] <;> omega

/-! ## Bytes that show their character -/

/-- The byte and the character are the same ASCII character, or both none. -/
def Shows (b : UInt8) (c : Char) : Prop := ∀ m, IsAscii m → (b = byte m ↔ c = m)

theorem shows_of_mem {b : UInt8} {c : Char} (hb : b ∈ String.utf8EncodeChar c) : Shows b c := by
  intro m hm
  by_cases hc : IsAscii c
  · rw [encodeChar_of_isAscii hc, List.mem_singleton] at hb
    rw [hb, byte_inj hc hm]
  · have hb := le_of_mem_encodeChar hc hb
    refine iff_of_false ?_ (fun h => hc (h ▸ hm))
    rintro rfl
    have hm' : m.toNat < 128 := hm
    rw [toNat_byte hm] at hb
    omega

/-- A byte beyond ASCII shows no ASCII character. -/
theorem ne_byte {b : UInt8} (hb : 128 ≤ b.toNat) {m : Char} (hm : IsAscii m) : b ≠ byte m := by
  rintro rfl
  have hm' : m.toNat < 128 := hm
  rw [toNat_byte hm] at hb
  omega

theorem Shows.beq {b : UInt8} {c m : Char} (h : Shows b c) (hm : IsAscii m) :
    (b == byte m) = (c == m) := by
  rw [Bool.eq_iff_iff, beq_iff_eq, beq_iff_eq]
  exact h m hm

theorem Shows.isBlankByte {b : UInt8} {c : Char} (h : Shows b c) :
    isBlankByte b = isAsciiBlank c := by
  unfold Chain.isBlankByte isAsciiBlank
  rw [h.beq (by decide), h.beq (by decide), h.beq (by decide), h.beq (by decide),
    h.beq (by decide)]

theorem exists_head_encodeChar (c : Char) :
    ∃ b rest, String.utf8EncodeChar c = b :: rest ∧ Shows b c := by
  obtain ⟨b, rest, h⟩ := List.exists_cons_of_ne_nil (String.utf8EncodeChar_ne_nil (c := c))
  exact ⟨b, rest, h, shows_of_mem (h ▸ List.mem_cons_self)⟩

/-- A text starts with an ASCII character just if its bytes start with that character. -/
theorem head?_encoded_iff {m : Char} (hm : IsAscii m) (cs : List Char) :
    (encoded cs).head? = some (byte m) ↔ cs.head? = some m := by
  cases cs with
  | nil => simp
  | cons c cs =>
    obtain ⟨b, rest, hc, hb⟩ := exists_head_encodeChar c
    simp [hc, hb m hm]

theorem pair_infix_cons_iff {α : Type} {a b : α} {l : List α} :
    [a, a] <:+: b :: l ↔ b = a ∧ l.head? = some a ∨ [a, a] <:+: l := by
  rw [List.infix_cons_iff]
  cases l <;> simp [List.cons_prefix_cons, eq_comm (a := a)]

theorem pair_infix_append_of_notMem {α : Type} {a : α} {w : List α} (hw : a ∉ w) (l : List α) :
    [a, a] <:+: w ++ l ↔ [a, a] <:+: l := by
  induction w with
  | nil => rfl
  | cons b w ih =>
    rw [List.mem_cons, not_or] at hw
    rw [List.cons_append, pair_infix_cons_iff, ih hw.2]
    exact or_iff_right fun h => hw.1 h.1.symm

/-- The same ASCII character stands twice side by side just if its byte does. -/
theorem pair_infix_encoded_iff {m : Char} (hm : IsAscii m) (cs : List Char) :
    [byte m, byte m] <:+: encoded cs ↔ [m, m] <:+: cs := by
  induction cs with
  | nil => simp
  | cons c cs ih =>
    rw [pair_infix_cons_iff, encoded_cons]
    by_cases hc : IsAscii c
    · rw [encodeChar_of_isAscii hc, List.singleton_append, pair_infix_cons_iff, byte_inj hc hm,
        head?_encoded_iff hm]
      exact or_congr_right ih
    · have hwide : byte m ∉ String.utf8EncodeChar c := fun h =>
        ne_byte (le_of_mem_encodeChar hc h) hm rfl
      have hne : ¬ (c = m ∧ cs.head? = some m) := fun h => hc (h.1 ▸ hm)
      rw [pair_infix_append_of_notMem hwide]
      exact ih.trans (or_iff_right hne).symm

/-! ## What stands at an offset -/

/-- The bytes from an offset to the end. -/
def StandsAt (bytes : ByteArray) (i : Nat) (l : List UInt8) : Prop :=
  ∀ k, bytes[i + k]? = l[k]?

namespace StandsAt

variable {bytes : ByteArray} {i : Nat} {b : UInt8} {l w : List UInt8}

theorem getElem?_eq (h : StandsAt bytes i l) : bytes[i]? = l.head? := by
  rw [List.head?_eq_getElem?]
  exact h 0

theorem tail (h : StandsAt bytes i (b :: l)) : StandsAt bytes (i + 1) l := by
  intro k
  rw [Nat.add_assoc, Nat.add_comm 1 k, h (k + 1), List.getElem?_cons_succ]

theorem lt_size (h : StandsAt bytes i (b :: l)) : i < bytes.size := by
  by_contra hi
  have := h.getElem?_eq
  rw [getElem?_neg bytes i hi] at this
  cases this

theorem size_le (h : StandsAt bytes i []) : bytes.size ≤ i := by
  by_contra hi
  have := h.getElem?_eq
  rw [getElem?_pos bytes i (Nat.lt_of_not_le hi)] at this
  cases this

theorem drop_append (h : StandsAt bytes i (w ++ l)) : StandsAt bytes (i + w.length) l := by
  induction w generalizing i with
  | nil => exact h
  | cons b w ih =>
    rw [List.length_cons, Nat.add_comm w.length 1, ← Nat.add_assoc]
    exact ih h.tail

end StandsAt

/-! ## Offsets -/

/-- The offset behind a text. -/
def offset (cs : List Char) : Nat := (encoded cs).length

@[simp] theorem offset_append (cs ds : List Char) :
    offset (cs ++ ds) = offset cs + offset ds := by
  simp [offset]

theorem offset_concat (before cs : List Char) (c : Char) :
    offset (before ++ (cs ++ [c])) = offset (before ++ cs) + offset [c] := by
  simp [Nat.add_assoc]

theorem offset_of_isAscii {c : Char} (h : IsAscii c) : offset [c] = 1 := by
  simp [offset, encodeChar_of_isAscii h]

theorem offset_pos (c : Char) : 0 < offset [c] := by
  obtain ⟨b, rest, hc, -⟩ := exists_head_encodeChar c
  simp [offset, hc]

section

variable {body : String} {before cs : List Char}

theorem toList_data_toUTF8 (body : String) : body.toUTF8.data.toList = encoded body.toList := by
  have h : body.toByteArray = body.toList.utf8Encode := by
    rw [← String.toByteArray_ofList, String.ofList_toList]
  rw [String.toUTF8_eq_toByteArray, h]
  simp [List.utf8Encode, encoded]

theorem size_toUTF8 (body : String) : body.toUTF8.size = offset body.toList := by
  unfold offset
  rw [← toList_data_toUTF8, Array.length_toList, ByteArray.size_data]

/-- Behind a text stand the bytes of the rest. -/
theorem standsAt_offset (hbody : body.toList = before ++ cs) :
    StandsAt body.toUTF8 (offset before) (encoded cs) := by
  intro k
  have h : body.toUTF8[offset before + k]? = body.toUTF8.data.toList[offset before + k]? := by
    by_cases hlt : offset before + k < body.toUTF8.size
    · rw [Array.getElem?_toList, getElem?_pos body.toUTF8 _ hlt,
        getElem?_pos body.toUTF8.data _ hlt]
      rfl
    · rw [Array.getElem?_toList, getElem?_neg body.toUTF8 _ hlt,
        getElem?_neg body.toUTF8.data _ hlt]
  rw [h, toList_data_toUTF8, hbody, encoded_append, offset, List.getElem?_append_right (by omega)]
  congr 1
  omega

/-- The byte in front of an offset shows the character in front of it. -/
theorem exists_byte_behind {c : Char} (hbody : body.toList = before ++ c :: cs) :
    ∃ b, body.toUTF8[offset (before ++ [c]) - 1]? = some b ∧ Shows b c := by
  obtain ⟨w, b, hw⟩ := (List.eq_nil_or_concat _).resolve_left
    (String.utf8EncodeChar_ne_nil (c := c))
  rw [List.concat_eq_append] at hw
  have hstand := standsAt_offset hbody
  rw [encoded_cons, hw, List.append_assoc] at hstand
  have hoff : offset (before ++ [c]) - 1 = offset before + w.length := by
    simp [offset, hw]
  refine ⟨b, ?_, shows_of_mem (by simp [hw])⟩
  rw [hoff, hstand.drop_append.getElem?_eq]
  rfl

/-- The offset behind a front of the body is a position between two characters. -/
theorem isValid_offset (hbody : body.toList = before ++ cs) :
    (⟨offset before⟩ : String.Pos.Raw).IsValid body := by
  rw [String.Pos.Raw.isValid_iff_exists_append]
  refine ⟨String.ofList before, String.ofList cs, ?_, ?_⟩
  · rw [← String.ofList_append, ← hbody, String.ofList_toList]
  · have hsize := size_toUTF8 (String.ofList before)
    rw [String.toList_ofList] at hsize
    ext
    rw [← hsize]
    rfl

/-- Between the offsets in front of a part and behind it stand the bytes of the part. -/
theorem extract_toUTF8 {p after : List Char} (hbody : body.toList = before ++ (p ++ after)) :
    body.toUTF8.extract (offset before) (offset before + offset p) =
      (String.ofList p).toUTF8 := by
  refine ByteArray.ext (Array.toList_inj.1 ?_)
  rw [ByteArray.data_extract, Array.toList_extract, toList_data_toUTF8, toList_data_toUTF8, hbody,
    String.toList_ofList]
  simp [offset, List.extract]

end

end Keybinds.Chain
