import Compositing.Proofs.Text.Advance
import Compositing.Proofs.Text.Folding

/-! # Texts as bytes

    A text is kept as the bytes of its UTF-8 form, and a place in it is an
    offset that counts them.  An offset is good for cutting the text only where
    a character ends: inside a character there is no text on either side.

    Taking the capitals out of the bytes, without a look at the characters, is
    taking them out of the characters: a character that takes more than one
    byte has no byte that stands for a letter. -/

namespace Compositing.Text
variable {text other before after : List Char}

/-! ## The bytes of a text -/

/-- The bytes of the UTF-8 form. -/
def bytes (text : List Char) : List UInt8 := text.flatMap String.utf8EncodeChar

theorem bytes_cons (c : Char) (text : List Char) :
    bytes (c :: text) = String.utf8EncodeChar c ++ bytes text := rfl

@[simp] theorem bytes_append (a b : List Char) : bytes (a ++ b) = bytes a ++ bytes b :=
  List.flatMap_append

@[simp] theorem length_bytes (text : List Char) : (bytes text).length = byteLength text := by
  induction text with
  | nil => rfl
  | cons c text ih =>
    rw [bytes_cons, List.length_append, String.length_utf8EncodeChar, ih, byteLength_cons]

/-- What a text begins with can be told by its bytes. -/
theorem bytes_isPrefix_iff : bytes text <+: bytes other ↔ text <+: other := by
  constructor
  · rintro ⟨rest, hrest⟩
    apply List.isPrefix_of_utf8Encode_append_eq_utf8Encode rest.toByteArray
    rw [List.utf8Encode, List.utf8Encode, ← List.toByteArray_append]
    exact congrArg List.toByteArray hrest
  · rintro ⟨rest, rfl⟩
    exact ⟨bytes rest, (bytes_append _ _).symm⟩

/-- Texts with the same bytes are the same. -/
theorem bytes_injective : Function.Injective bytes := by
  intro a b h
  have hprefix : a <+: b := bytes_isPrefix_iff.mp (h ▸ List.prefix_rfl)
  have hprefix' : b <+: a := bytes_isPrefix_iff.mp (h ▸ List.prefix_rfl)
  exact hprefix.eq_of_length_le hprefix'.length_le

/-! ## Case -/

/-- The byte of a capital replaced by that of its small letter. -/
def foldByte (b : UInt8) : UInt8 := if 65 ≤ b ∧ b ≤ 90 then b + 32 else b

theorem foldByte_of_le {b : UInt8} (h : 128 ≤ b.toNat) : foldByte b = b := by
  rw [foldByte, if_neg]
  rw [UInt8.le_iff_toNat_le, UInt8.le_iff_toNat_le]
  intro hcapital
  have : b.toNat ≤ 90 := hcapital.2
  omega

theorem foldByte_ofNat {n : Nat} (h : n ≤ 127) :
    foldByte (UInt8.ofNat n) = UInt8.ofNat (if 65 ≤ n ∧ n ≤ 90 then n + 32 else n) := by
  have hcapital : (65 ≤ UInt8.ofNat n ∧ UInt8.ofNat n ≤ 90) ↔ (65 ≤ n ∧ n ≤ 90) := by
    have hn : (UInt8.ofNat n).toNat = n := by
      rw [UInt8.toNat_ofNat']
      omega
    rw [UInt8.le_iff_toNat_le, UInt8.le_iff_toNat_le, hn]
    rfl
  rw [foldByte]
  simp only [hcapital]
  split
  · rw [UInt8.ofNat_add]
    rfl
  · rfl

theorem utf8EncodeChar_of_le {c : Char} (h : c.toNat ≤ 127) :
    String.utf8EncodeChar c = [UInt8.ofNat c.toNat] := by
  unfold String.utf8EncodeChar
  exact if_pos h

/-- A character that is not an ASCII one has no byte that an ASCII one has. -/
theorem le_of_mem_utf8EncodeChar {c : Char} (h : 127 < c.toNat) :
    ∀ b ∈ String.utf8EncodeChar c, 128 ≤ b.toNat := by
  have hascii : ¬ c.val.toNat ≤ 127 := by
    change ¬ c.toNat ≤ 127
    omega
  unfold String.utf8EncodeChar
  simp only [if_neg hascii]
  -- two, three or four bytes
  repeat' split
  all_goals
    simp only [List.mem_cons, List.not_mem_nil, or_false, forall_eq_or_imp, forall_eq,
      UInt8.toNat_ofNat']
    omega

/-- The bytes of a character lose its capital, if it is one, with it. -/
theorem utf8EncodeChar_toLower (c : Char) :
    String.utf8EncodeChar c.toLower = (String.utf8EncodeChar c).map foldByte := by
  by_cases h : c.toNat ≤ 127
  · have hlower : c.toLower.toNat ≤ 127 := by
      rw [toNat_toLower]
      split <;> omega
    rw [utf8EncodeChar_of_le h, utf8EncodeChar_of_le hlower, List.map_singleton,
      foldByte_ofNat h, toNat_toLower]
  · have hsame : c.toLower = c := by
      rw [← Char.toNat_inj, toNat_toLower, if_neg]
      omega
    have hbytes : ∀ b ∈ String.utf8EncodeChar c, foldByte b = b := fun b hb =>
      foldByte_of_le (le_of_mem_utf8EncodeChar (by omega) b hb)
    rw [hsame, List.map_congr_left hbytes, List.map_id']

theorem bytes_foldCase (text : List Char) : bytes (foldCase text) = (bytes text).map foldByte := by
  induction text with
  | nil => rfl
  | cons c text ih =>
    rw [bytes_cons, List.map_append, ← utf8EncodeChar_toLower, ← ih]
    rfl

/-- Are bytes the same, or the same up to the case of ASCII letters? -/
def sameBytes (caseSensitive : Bool) (a b : List UInt8) : Bool :=
  if caseSensitive then a == b else a.map foldByte == b.map foldByte

/-- Bytes tell whether a text spells a word. -/
theorem sameBytes_iff {caseSensitive : Bool} {word : List Char} :
    sameBytes caseSensitive (bytes word) (bytes text) = true ↔
      Spells caseSensitive word text := by
  rw [spells_iff, sameBytes]
  cases caseSensitive with
  | true => simp only [if_true, beq_iff_eq, bytes_injective.eq_iff]
  | false =>
    simp only [Bool.false_eq_true, if_false, beq_iff_eq, ← bytes_foldCase,
      bytes_injective.eq_iff]

/-- A word and its spelling take the same bytes. -/
theorem Spells.byteLength_eq {caseSensitive : Bool} {word : List Char}
    (h : Spells caseSensitive word text) : byteLength text = byteLength word := by
  have hsame := sameBytes_iff.mpr h
  rw [sameBytes] at hsame
  rw [← length_bytes, ← length_bytes]
  cases caseSensitive with
  | true =>
    simp only [if_true, beq_iff_eq] at hsame
    rw [hsame]
  | false =>
    simp only [Bool.false_eq_true, if_false, beq_iff_eq] at hsame
    simpa using (congrArg List.length hsame).symm

/-! ## Cutting at an offset -/

/-- The text in front of an offset and the text behind it, where no character stands across it. -/
def cutAt? : (offset : Nat) → (text : List Char) → Option (List Char × List Char)
  | 0, text => some ([], text)
  | _ + 1, [] => none
  | offset + 1, c :: text =>
    if c.utf8Size ≤ offset + 1 then
      (cutAt? (offset + 1 - c.utf8Size) text).map fun (before, after) => (c :: before, after)
    else none

/-- A text is cut at an offset exactly where so many bytes are those of its first characters. -/
theorem cutAt?_eq_some_iff {offset : Nat} :
    cutAt? offset text = some (before, after) ↔
      text = before ++ after ∧ byteLength before = offset := by
  induction text generalizing offset before with
  | nil =>
    cases offset with
    | zero =>
      simp only [cutAt?, Option.some.injEq, Prod.mk.injEq, List.nil_eq, List.append_eq_nil_iff]
      constructor
      · rintro ⟨rfl, rfl⟩
        exact ⟨⟨rfl, rfl⟩, rfl⟩
      · rintro ⟨⟨rfl, rfl⟩, -⟩
        exact ⟨rfl, rfl⟩
    | succ offset =>
      refine ⟨nofun, ?_⟩
      rintro ⟨hnil, hoffset⟩
      rw [(List.append_eq_nil_iff.mp hnil.symm).1] at hoffset
      cases hoffset
  | cons c text ih =>
    cases offset with
    | zero =>
      simp only [cutAt?, Option.some.injEq, Prod.mk.injEq, byteLength_eq_zero_iff]
      constructor
      · rintro ⟨rfl, rfl⟩
        exact ⟨rfl, rfl⟩
      · rintro ⟨htext, rfl⟩
        exact ⟨rfl, htext⟩
    | succ offset =>
      rw [cutAt?]
      constructor
      · intro h
        split at h
        · rename_i hsize
          obtain ⟨⟨first, rest⟩, hcut, heq⟩ := Option.map_eq_some_iff.mp h
          cases heq
          obtain ⟨rfl, hfirst⟩ := ih.mp hcut
          exact ⟨rfl, by rw [byteLength_cons, hfirst]; omega⟩
        · cases h
      · rintro ⟨htext, hoffset⟩
        -- the offset is not the first, so the first character is in front of it
        cases before with
        | nil => cases hoffset
        | cons d before =>
          obtain ⟨rfl, rfl⟩ := List.cons.inj htext
          rw [byteLength_cons] at hoffset
          rw [if_pos (by omega), ih.mpr ⟨rfl, by omega⟩]
          rfl

/-- Behind a part of the text it can be cut. -/
theorem cutAt?_append (before after : List Char) :
    cutAt? (byteLength before) (before ++ after) = some (before, after) :=
  cutAt?_eq_some_iff.mpr ⟨rfl, rfl⟩

/-- The text between two offsets. -/
def slice? (start stop : Nat) (text : List Char) : Option (List Char) :=
  (cutAt? start text).bind fun (_, rest) => (cutAt? (stop - start) rest).map Prod.fst

/-- A slice that begins behind a part of the text is cut from the rest. -/
theorem slice?_append (before after : List Char) (n : Nat) :
    slice? (byteLength before) (byteLength before + n) (before ++ after) =
      (cutAt? n after).map Prod.fst := by
  rw [slice?, cutAt?_append, Option.bind_some, Nat.add_sub_cancel_left]

end Compositing.Text
