import Fiy.ByteStrings

/-!
# Characters and their bytes

Texts as lists of characters, and the bytes that encode them. A byte below 128 is always a
character of its own, so a text can be cut at such a byte without cutting a character.
-/

namespace EncodedTexts

open ByteStrings

/-- UTF-8 -/
def utf8 (s : List Char) : Text := s.flatMap String.utf8EncodeChar

def Ascii (c : Char) : Prop := c.toNat < 128

instance (c : Char) : Decidable (Ascii c) := inferInstanceAs (Decidable (_ < _))

def AllAscii (s : List Char) : Prop := ∀ c ∈ s, Ascii c

instance (s : List Char) : Decidable (AllAscii s) := List.decidableBAll Ascii s

@[simp] theorem utf8_nil : utf8 [] = [] := rfl

@[simp] theorem utf8_append (s t : List Char) : utf8 (s ++ t) = utf8 s ++ utf8 t :=
  List.flatMap_append

theorem utf8_cons (c : Char) (s : List Char) : utf8 (c :: s) = String.utf8EncodeChar c ++ utf8 s :=
  rfl

theorem encode_ascii {c : Char} (ascii : Ascii c) : String.utf8EncodeChar c = [c.toUInt8] := by
  have small : c.val.toNat ≤ 0x7f := by
    have below : c.val.toNat < 128 := ascii
    omega
  rw [String.utf8EncodeChar]
  exact if_pos small

theorem utf8_cons_ascii {c : Char} (ascii : Ascii c) (s : List Char) :
    utf8 (c :: s) = c.toUInt8 :: utf8 s := by
  rw [utf8_cons, encode_ascii ascii, List.singleton_append]

/-- Other characters have no byte below 128. -/
theorem encode_other {c : Char} (other : ¬ Ascii c) {b : Byte}
    (mem : b ∈ String.utf8EncodeChar c) : 128 ≤ b.toNat := by
  have large : ¬ c.val.toNat ≤ 0x7f := by
    have above : ¬ c.val.toNat < 128 := other
    omega
  have byte {n : Nat} (from_ : 128 ≤ n) (below : n < 256) : 128 ≤ (UInt8.ofNat n).toNat := by
    rw [UInt8.toNat_ofNat_of_lt' below]
    exact from_
  rw [String.utf8EncodeChar] at mem
  simp only [if_neg large] at mem
  split_ifs at mem
  · simp only [List.mem_cons, List.not_mem_nil, or_false] at mem
    rcases mem with rfl | rfl
    · exact byte (by omega) (by omega)
    · exact byte (by omega) (by omega)
  · simp only [List.mem_cons, List.not_mem_nil, or_false] at mem
    rcases mem with rfl | rfl | rfl
    · exact byte (by omega) (by omega)
    · exact byte (by omega) (by omega)
    · exact byte (by omega) (by omega)
  · simp only [List.mem_cons, List.not_mem_nil, or_false] at mem
    rcases mem with rfl | rfl | rfl | rfl
    · exact byte (by omega) (by omega)
    · exact byte (by omega) (by omega)
    · exact byte (by omega) (by omega)
    · exact byte (by omega) (by omega)

theorem toUInt8_toNat {c : Char} (ascii : Ascii c) : c.toUInt8.toNat = c.toNat := by
  have below : c.toNat < 128 := ascii
  exact UInt8.toNat_ofNat_of_lt' (below.trans (by decide))

theorem ascii_inj {c d : Char} (ascii : Ascii c) (ascii' : Ascii d) (same : c.toUInt8 = d.toUInt8) :
    c = d := by
  have codes := congrArg UInt8.toNat same
  rw [toUInt8_toNat ascii, toUInt8_toNat ascii'] at codes
  exact Char.toNat_inj.mp codes

/-- An ASCII character stands in a text where its byte is. -/
theorem mem_utf8_iff {c : Char} (ascii : Ascii c) {s : List Char} : c.toUInt8 ∈ utf8 s ↔ c ∈ s := by
  rw [utf8, List.mem_flatMap]
  constructor
  · rintro ⟨d, listed, mem⟩
    by_cases ascii' : Ascii d
    · rw [encode_ascii ascii', List.mem_singleton] at mem
      exact ascii_inj ascii ascii' mem ▸ listed
    · have high := encode_other ascii' mem
      have low : c.toNat < 128 := ascii
      rw [toUInt8_toNat ascii] at high
      omega
  · intro listed
    exact ⟨c, listed, by rw [encode_ascii ascii]; exact List.mem_cons_self⟩

/-- A text is cut at an ASCII byte. -/
theorem utf8_cut {s : List Char} (before : Text) {after : Text} {c : Char} (ascii : Ascii c)
    (text : utf8 s = before ++ c.toUInt8 :: after) :
    ∃ s₁ s₂, s = s₁ ++ c :: s₂ ∧ utf8 s₁ = before ∧ utf8 s₂ = after := by
  induction s generalizing before with
  | nil => simp at text
  | cons d s ih =>
    rw [utf8_cons] at text
    rcases List.append_eq_append_iff.mp text with ⟨more, rfl, rest⟩ | ⟨more, whole, rest⟩
    · obtain ⟨s₁, s₂, rfl, rfl, rfl⟩ := ih more rest
      exact ⟨d :: s₁, s₂, rfl, rfl, rfl⟩
    · cases more with
      | nil =>
        rw [List.append_nil] at whole
        obtain ⟨s₁, s₂, rfl, empty, rfl⟩ := ih [] rest.symm
        refine ⟨d :: s₁, s₂, rfl, ?_, rfl⟩
        rw [utf8_cons, empty, List.append_nil, whole]
      | cons b more =>
        -- the byte is one of the next character
        obtain ⟨rfl, rest'⟩ := List.cons.inj rest
        have mem : c.toUInt8 ∈ String.utf8EncodeChar d := by rw [whole]; simp
        by_cases ascii' : Ascii d
        · rw [encode_ascii ascii'] at whole mem
          obtain rfl := ascii_inj ascii ascii' (List.mem_singleton.mp mem)
          have lengths := congrArg List.length whole
          simp only [List.length_append, List.length_cons, List.length_nil] at lengths
          have empty : before = [] := List.length_eq_zero_iff.mp (by omega)
          have nothing : more = [] := List.length_eq_zero_iff.mp (by omega)
          obtain rfl := nothing
          exact ⟨[], s, rfl, empty.symm, rest'.symm⟩
        · have high := encode_other ascii' mem
          have low : c.toNat < 128 := ascii
          rw [toUInt8_toNat ascii] at high
          omega

/-- Behind ASCII characters a text goes on as a text. -/
theorem utf8_prefix {s : List Char} (front : List Char) {after : Text} (ascii : AllAscii front)
    (text : utf8 s = utf8 front ++ after) : ∃ s₂, s = front ++ s₂ ∧ utf8 s₂ = after := by
  induction front generalizing s with
  | nil => exact ⟨s, rfl, text⟩
  | cons c front ih =>
    obtain ⟨first, ascii⟩ := List.forall_mem_cons.mp ascii
    rw [utf8_cons_ascii first, List.cons_append] at text
    obtain ⟨s₁, s₂, rfl, empty, rest⟩ := utf8_cut [] first text
    obtain rfl : s₁ = [] := by
      cases s₁ with
      | nil => rfl
      | cons d s₁ =>
        have lengths := congrArg List.length empty
        have some_ := List.length_pos_iff.mpr (String.utf8EncodeChar_ne_nil (c := d))
        rw [utf8_cons, List.length_append, List.length_nil] at lengths
        omega
    obtain ⟨s₃, rfl, behind⟩ := ih ascii rest
    exact ⟨s₃, rfl, behind⟩

theorem utf8_injective {s t : List Char} (same : utf8 s = utf8 t) : s = t := by
  have bytes : s.utf8Encode = t.utf8Encode := congrArg List.toByteArray same
  have strings : String.ofList s = String.ofList t := String.toByteArray_inj.mp bytes
  exact String.ofList_injective strings

theorem utf8_ascii {chars : List Char} (ascii : AllAscii chars) :
    utf8 chars = chars.map Char.toUInt8 := by
  induction chars with
  | nil => rfl
  | cons c chars ih =>
    obtain ⟨first, ascii⟩ := List.forall_mem_cons.mp ascii
    rw [utf8_cons_ascii first, ih ascii, List.map_cons]

/-- What an ASCII text begins with is seen in the bytes. -/
theorem prefix_of_utf8 {front s : List Char} (ascii : AllAscii front)
    (begins : front.map Char.toUInt8 <+: utf8 s) : front <+: s := by
  obtain ⟨after, text⟩ := begins
  rw [← utf8_ascii ascii] at text
  obtain ⟨rest, rfl, -⟩ := utf8_prefix _ ascii text.symm
  exact List.prefix_append _ _

end EncodedTexts
