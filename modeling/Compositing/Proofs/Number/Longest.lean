import Compositing.Proofs.Number.Scan
import Compositing.Proofs.Text.Advance

/-! # The longest numeral

    A numeral is an optional sign, a mantissa and an optional exponent.  A scan
    reads each part for as long as it goes and gives up a point or an `e` that
    no digit belongs to.  This is the longest numeral the text begins with: a
    longer one would have a longer sign, mantissa or exponent, and only the
    last part of a shorter one can go on. -/

namespace Compositing.Number
variable {text rest : List Char}

/-! ## How numerals are written -/

/-- At least one digit, and nothing else. -/
def IsDigits (text : List Char) : Prop := text ≠ [] ∧ ∀ c ∈ text, c.isDigit = true

/-- A sign or nothing. -/
def IsOptionalSign (text : List Char) : Prop := text = [] ∨ ∃ c, isSign c = true ∧ text = [c]

/-- Digits, and after them nothing or a point and any number of digits; or a point and digits. -/
inductive IsMantissa : (text : List Char) → Prop where
  | whole {digits : List Char} (h : IsDigits digits) : IsMantissa digits
  | pointed {digits fraction : List Char} (h : IsDigits digits)
    (hfraction : ∀ c ∈ fraction, c.isDigit = true) : IsMantissa (digits ++ '.' :: fraction)
  | fraction {digits : List Char} (h : IsDigits digits) : IsMantissa ('.' :: digits)

/-- Nothing; or a letter `e`, a sign or nothing, and digits. -/
inductive IsExponent : (text : List Char) → Prop where
  | none : IsExponent []
  | some {e : Char} {sign digits : List Char} (he : e = 'e' ∨ e = 'E') (hsign : IsOptionalSign sign)
    (hdigits : IsDigits digits) : IsExponent (e :: (sign ++ digits))

/-- A sign or nothing, a mantissa and an exponent or nothing. -/
def IsNumeral (text : List Char) : Prop :=
  ∃ sign mantissa exponent, text = sign ++ mantissa ++ exponent ∧ IsOptionalSign sign ∧
    IsMantissa mantissa ∧ IsExponent exponent

/-- The longest numeral that the text begins with. -/
structure IsLongestNumeral (text numeral : List Char) : Prop where
  begins : numeral <+: text
  isNumeral : IsNumeral numeral
  longest : ∀ other, other <+: text → IsNumeral other → other.length ≤ numeral.length

/-! ## Digits -/

/-- Digits are counted together with those behind them. -/
theorem digitCount_digits_append {digits : List Char} (h : ∀ c ∈ digits, c.isDigit = true)
    (rest : List Char) : digitCount (digits ++ rest) = digits.length + digitCount rest := by
  rw [digitCount, List.takeWhile_append_of_pos h, List.length_append]
  rfl

/-- What begins with no digit has none to count. -/
theorem digitCount_of_head (h : ∀ c ∈ text.head?, c.isDigit = false) : digitCount text = 0 := by
  cases text with
  | nil => rfl
  | cons c text => simp [digitCount, h c rfl]

/-- A text is the digits it begins with and what does not begin with one. -/
theorem exists_digits (text : List Char) :
    ∃ digits rest, text = digits ++ rest ∧ (∀ c ∈ digits, c.isDigit = true) ∧
      (∀ c ∈ rest.head?, c.isDigit = false) ∧ digitCount text = digits.length := by
  refine ⟨text.takeWhile Char.isDigit, text.dropWhile Char.isDigit,
    List.takeWhile_append_dropWhile.symm, List.all_eq_true.mp List.all_takeWhile, ?_, rfl⟩
  intro c hc
  have hnot := List.head?_dropWhile_not Char.isDigit text
  rw [Option.mem_def.mp hc] at hnot
  simpa using hnot

/-- What begins with digits begins with a digit. -/
theorem IsDigits.isDigit_head {digits : List Char} (h : IsDigits digits) (rest : List Char) :
    ∀ c ∈ (digits ++ rest).head?, c.isDigit = true := by
  obtain ⟨d, tail, rfl⟩ := List.exists_cons_of_ne_nil h.1
  intro c hc
  cases hc
  exact h.2 d List.mem_cons_self

theorem isDigits_of_length {digits : List Char} (h : ∀ c ∈ digits, c.isDigit = true)
    (hlength : digits.length ≠ 0) : IsDigits digits :=
  ⟨fun hnil => hlength (by rw [hnil]; rfl), h⟩

/-! ## The mantissa -/

/-- Digits and a point are followed by the digits behind the point. -/
theorem mantissaLength_pointed {digits : List Char} (h : ∀ c ∈ digits, c.isDigit = true)
    (rest : List Char) :
    mantissaLength (digits ++ '.' :: rest) =
      if digits.length + digitCount rest = 0 then 0 else digits.length + 1 + digitCount rest := by
  have hcount : digitCount (digits ++ '.' :: rest) = digits.length := by
    rw [digitCount_digits_append h, digitCount_of_head (by simp), Nat.add_zero]
  rw [mantissaLength_eq, hcount, List.drop_left]
  rfl

/-- A point in front has the digits behind it. -/
theorem mantissaLength_point (rest : List Char) :
    mantissaLength ('.' :: rest) = if digitCount rest = 0 then 0 else 1 + digitCount rest := by
  have h := @mantissaLength_pointed [] nofun rest
  rwa [List.nil_append, List.length_nil, Nat.zero_add, Nat.zero_add] at h

/-- Digits without a point behind them are the mantissa. -/
theorem mantissaLength_whole {digits : List Char} (h : ∀ c ∈ digits, c.isDigit = true)
    (hdigit : ∀ c ∈ rest.head?, c.isDigit = false) (hpoint : ∀ c ∈ rest.head?, c ≠ '.') :
    mantissaLength (digits ++ rest) = digits.length := by
  have hcount : digitCount (digits ++ rest) = digits.length := by
    rw [digitCount_digits_append h, digitCount_of_head hdigit, Nat.add_zero]
  rw [mantissaLength_eq, hcount, List.drop_left]
  split
  · exact absurd rfl (hpoint '.' rfl)
  · rfl

/-- The digits in front belong to the mantissa. -/
theorem digitCount_le_mantissaLength (text : List Char) : digitCount text ≤ mantissaLength text := by
  rw [mantissaLength_eq]
  split
  · rename_i rest _
    by_cases hzero : digitCount text + digitCount rest = 0
    · rw [if_pos hzero]
      omega
    · rw [if_neg hzero]
      omega
  · exact Nat.le_refl _

/-- No mantissa is longer than the one that is found where it is. -/
theorem IsMantissa.length_le {mantissa : List Char} (h : IsMantissa mantissa) (rest : List Char) :
    mantissa.length ≤ mantissaLength (mantissa ++ rest) := by
  cases h with
  | whole hdigits =>
    have hle := digitCount_le_mantissaLength (mantissa ++ rest)
    rw [digitCount_digits_append hdigits.2] at hle
    omega
  | @pointed digits fraction hdigits hfraction =>
    have hpos := List.length_pos_iff.mpr hdigits.1
    rw [List.append_assoc, List.cons_append, mantissaLength_pointed hdigits.2,
      if_neg (by omega), digitCount_digits_append hfraction, List.length_append, List.length_cons]
    omega
  | @fraction digits hdigits =>
    have hpos := List.length_pos_iff.mpr hdigits.1
    rw [List.cons_append, mantissaLength_point, digitCount_digits_append hdigits.2,
      if_neg (by omega), List.length_cons]
    omega

/-- A mantissa is found whole in front of what is neither a digit nor a point. -/
theorem IsMantissa.mantissaLength_append {mantissa : List Char} (h : IsMantissa mantissa)
    (hdigit : ∀ c ∈ rest.head?, c.isDigit = false) (hpoint : ∀ c ∈ rest.head?, c ≠ '.') :
    mantissaLength (mantissa ++ rest) = mantissa.length := by
  cases h with
  | whole hdigits => exact mantissaLength_whole hdigits.2 hdigit hpoint
  | @pointed digits fraction hdigits hfraction =>
    have hpos := List.length_pos_iff.mpr hdigits.1
    rw [List.append_assoc, List.cons_append, mantissaLength_pointed hdigits.2,
      if_neg (by omega), digitCount_digits_append hfraction, digitCount_of_head hdigit,
      List.length_append, List.length_cons]
    omega
  | @fraction digits hdigits =>
    have hpos := List.length_pos_iff.mpr hdigits.1
    rw [List.cons_append, mantissaLength_point, digitCount_digits_append hdigits.2,
      digitCount_of_head hdigit, if_neg (by omega), List.length_cons]
    omega

/-- What is found is a mantissa. -/
theorem isMantissa_take (h : mantissaLength text ≠ 0) :
    IsMantissa (text.take (mantissaLength text)) := by
  obtain ⟨digits, rest, rfl, hdigits, hrest, -⟩ := exists_digits text
  by_cases hpoint : ∃ tail, rest = '.' :: tail
  · obtain ⟨tail, rfl⟩ := hpoint
    obtain ⟨fraction, after, rfl, hfraction, -, hcount⟩ := exists_digits tail
    rw [mantissaLength_pointed hdigits, hcount] at h ⊢
    have hne : ¬ digits.length + fraction.length = 0 := fun hzero => h (by rw [if_pos hzero])
    have htake : (digits ++ '.' :: (fraction ++ after)).take
        (digits.length + 1 + fraction.length) = digits ++ '.' :: fraction := by
      rw [Nat.add_assoc, List.take_length_add_append, Nat.add_comm 1, List.take_succ_cons,
        List.take_left]
    rw [if_neg hne, htake]
    by_cases hnil : digits = []
    · subst hnil
      exact .fraction (isDigits_of_length hfraction (by simpa using hne))
    · exact .pointed ⟨hnil, hdigits⟩ hfraction
  · have hlength := mantissaLength_whole hdigits hrest (by
      intro c hc hcpoint
      obtain ⟨tail, htail⟩ := List.head?_eq_some_iff.mp (Option.mem_def.mp hc)
      exact hpoint ⟨tail, by rw [htail, hcpoint]⟩)
    rw [hlength] at h ⊢
    rw [List.take_left]
    exact .whole (isDigits_of_length hdigits h)

/-! ## The sign and the exponent -/

theorem isSign_of_isDigit {c : Char} (h : c.isDigit = true) : isSign c = false := by
  rw [isSign, Bool.or_eq_false_iff, beq_eq_false_iff_ne, beq_eq_false_iff_ne]
  constructor
  · rintro rfl
    cases h
  · rintro rfl
    cases h

/-- A sign, or none, is found whole in front of what is not a sign. -/
theorem IsOptionalSign.signLength_append {sign : List Char} (h : IsOptionalSign sign)
    (hrest : ∀ c ∈ rest.head?, isSign c = false) : signLength (sign ++ rest) = sign.length := by
  rcases h with rfl | ⟨c, hc, rfl⟩
  · cases rest with
    | nil => rfl
    | cons c rest => simp [signLength, hrest c rfl]
  · simp [signLength, hc]

/-- What is found is a sign or nothing. -/
theorem isOptionalSign_take (text : List Char) : IsOptionalSign (text.take (signLength text)) := by
  cases text with
  | nil => exact .inl rfl
  | cons c text =>
    by_cases hc : isSign c = true
    · exact .inr ⟨c, hc, by simp [signLength, hc]⟩
    · exact .inl (by simp [signLength, hc])

/-- A letter `e` begins an exponent if digits follow it, behind a sign or not. -/
theorem exponentLength_letter {e : Char} (he : e = 'e' ∨ e = 'E') (rest : List Char) :
    exponentLength (e :: rest) =
      if digitCount (rest.drop (signLength rest)) = 0 then 0
      else 1 + signLength rest + digitCount (rest.drop (signLength rest)) := by
  rw [exponentLength_cons, if_pos (by simpa using he)]
  split
  · rename_i hzero
    rw [if_pos hzero]
  · rename_i hzero
    rw [if_neg hzero]

/-- No exponent is longer than the one that is found where it is. -/
theorem IsExponent.length_le {exponent : List Char} (h : IsExponent exponent) (rest : List Char) :
    exponent.length ≤ exponentLength (exponent ++ rest) := by
  cases h with
  | none => exact Nat.zero_le _
  | @some e sign digits he hsign hdigits =>
    have hpos := List.length_pos_iff.mpr hdigits.1
    have hlength : signLength (sign ++ (digits ++ rest)) = sign.length :=
      hsign.signLength_append fun c hc => isSign_of_isDigit (hdigits.isDigit_head rest c hc)
    rw [List.cons_append, exponentLength_letter he, List.append_assoc, hlength, List.drop_left,
      digitCount_digits_append hdigits.2, if_neg (by omega), List.length_cons, List.length_append]
    omega

/-- What is found is an exponent or nothing. -/
theorem isExponent_take (text : List Char) : IsExponent (text.take (exponentLength text)) := by
  cases text with
  | nil => exact .none
  | cons e text =>
    by_cases he : e = 'e' ∨ e = 'E'
    · obtain ⟨digits, rest, hrest, hdigits, -, hcount⟩ := exists_digits (text.drop (signLength text))
      rw [exponentLength_letter he, hcount]
      by_cases hzero : digits.length = 0
      · rw [if_pos hzero]
        exact .none
      · have htake : (e :: text).take (1 + signLength text + digits.length) =
            e :: (text.take (signLength text) ++ digits) := by
          rw [Nat.add_assoc, Nat.add_comm 1, List.take_succ_cons, List.take_add, hrest,
            List.take_left]
        rw [if_neg hzero, htake]
        exact .some he (isOptionalSign_take text) (isDigits_of_length hdigits hzero)
    · rw [exponentLength_cons, if_neg (by simpa using he)]
      exact .none

/-! ## The longest numeral -/

/-- How many characters the parts of the numeral take that the text begins with. -/
def numeralLength (text : List Char) : Nat :=
  let length := signLength text + mantissaLength (text.drop (signLength text))
  length + exponentLength (text.drop length)

/-- The parts that are found are there. -/
theorem length_take_numeralLength (text : List Char) :
    (text.take (numeralLength text)).length = numeralLength text := by
  rw [List.length_take]
  exact Nat.min_eq_left (numeral_le text)

/-- A scan takes the parts of a numeral if there is a mantissa and nothing goes on behind them. -/
theorem scan_eq_some_iff {n : Nat} :
    scan text = some n ↔ mantissaLength (text.drop (signLength text)) ≠ 0 ∧
      n = numeralLength text ∧ EndsNumeral (text.drop n) := by
  have hends : ∀ rest : List Char, rest.head?.any continuesWord = false ↔ EndsNumeral rest := by
    intro rest
    cases rest with
    | nil => simp [EndsNumeral]
    | cons c rest => simp [EndsNumeral]
  have hscan : scan text =
      if mantissaLength (text.drop (signLength text)) = 0 then none
      else if (text.drop (numeralLength text)).head?.any continuesWord then none
      else some (numeralLength text) := scan_eq text
  rw [hscan, Option.ite_none_left_eq_some, Option.ite_none_left_eq_some, Bool.not_eq_true, hends,
    Option.some.injEq]
  constructor
  · rintro ⟨hmantissa, hend, rfl⟩
    exact ⟨hmantissa, rfl, hend⟩
  · rintro ⟨hmantissa, rfl, hend⟩
    exact ⟨hmantissa, hend, rfl⟩

/-- The parts that are found make a numeral. -/
theorem isNumeral_take (h : mantissaLength (text.drop (signLength text)) ≠ 0) :
    IsNumeral (text.take (numeralLength text)) := by
  refine ⟨text.take (signLength text),
    (text.drop (signLength text)).take (mantissaLength (text.drop (signLength text))),
    (text.drop (signLength text + mantissaLength (text.drop (signLength text)))).take
      (exponentLength
        (text.drop (signLength text + mantissaLength (text.drop (signLength text))))), ?_,
    isOptionalSign_take text, isMantissa_take h, isExponent_take _⟩
  rw [numeralLength, List.take_add, List.take_add]

theorem IsMantissa.length_pos {mantissa : List Char} (h : IsMantissa mantissa) :
    0 < mantissa.length := by
  cases h with
  | whole hdigits => exact List.length_pos_iff.mpr hdigits.1
  | pointed hdigits _ =>
    rw [List.length_append]
    exact Nat.add_pos_left (List.length_pos_iff.mpr hdigits.1) _
  | fraction _ => exact Nat.succ_pos _

/-- A mantissa begins with a digit or a point. -/
theorem IsMantissa.head {mantissa : List Char} (h : IsMantissa mantissa) (rest : List Char) :
    ∀ c ∈ (mantissa ++ rest).head?, c.isDigit = true ∨ c = '.' := by
  intro c hc
  cases h with
  | whole hdigits => exact .inl (hdigits.isDigit_head rest c hc)
  | pointed hdigits _ =>
    rw [List.append_assoc] at hc
    exact .inl (hdigits.isDigit_head _ c hc)
  | fraction _ =>
    cases hc
    exact .inr rfl

/-- No mantissa begins with a sign. -/
theorem isSign_of_head {c : Char} (h : c.isDigit = true ∨ c = '.') : isSign c = false := by
  rcases h with hdigit | rfl
  · exact isSign_of_isDigit hdigit
  · rfl

/-- No numeral in front is longer than the parts that are found, and there is a mantissa. -/
theorem IsNumeral.length_le {numeral : List Char} (h : IsNumeral numeral) (rest : List Char) :
    mantissaLength ((numeral ++ rest).drop (signLength (numeral ++ rest))) ≠ 0 ∧
      numeral.length ≤ numeralLength (numeral ++ rest) := by
  obtain ⟨sign, mantissa, exponent, rfl, hsign, hmantissa, hexponent⟩ := h
  have htext : sign ++ mantissa ++ exponent ++ rest = sign ++ (mantissa ++ (exponent ++ rest)) := by
    simp only [List.append_assoc]
  have hlength : signLength (sign ++ (mantissa ++ (exponent ++ rest))) = sign.length :=
    hsign.signLength_append fun c hc => isSign_of_head (hmantissa.head _ c hc)
  have hpos := hmantissa.length_pos
  have hle := hmantissa.length_le (exponent ++ rest)
  rw [htext, numeralLength, hlength, List.drop_left, List.length_append, List.length_append]
  refine ⟨by omega, ?_⟩
  cases hexponent with
  | none =>
    simp only [List.length_nil]
    omega
  | @some e exponentSign digits he hexponentSign hdigits =>
    -- the letter ends the mantissa, so the exponent is looked for where it is
    have hwhole : mantissaLength (mantissa ++ (e :: (exponentSign ++ digits) ++ rest)) =
        mantissa.length := by
      apply hmantissa.mantissaLength_append
      · rintro c ⟨⟩
        rcases he with rfl | rfl <;> rfl
      · rintro c ⟨⟩
        rcases he with rfl | rfl <;> decide
    have hexponentLe := (IsExponent.some he hexponentSign hdigits).length_le rest
    simp only [hwhole, List.drop_length_add_append, List.drop_left]
    omega

/-- The longest numeral is made of the parts that are found. -/
theorem isLongestNumeral_iff {numeral : List Char} :
    IsLongestNumeral text numeral ↔
      mantissaLength (text.drop (signLength text)) ≠ 0 ∧
        numeral = text.take (numeralLength text) := by
  constructor
  · rintro ⟨⟨rest, rfl⟩, hnumeral, hlongest⟩
    obtain ⟨hmantissa, hle⟩ := hnumeral.length_le rest
    have hfound := hlongest _ (List.take_prefix _ _) (isNumeral_take hmantissa)
    rw [length_take_numeralLength] at hfound
    exact ⟨hmantissa, by rw [Nat.le_antisymm hfound hle, List.take_left]⟩
  · rintro ⟨hmantissa, rfl⟩
    refine ⟨List.take_prefix _ _, isNumeral_take hmantissa, ?_⟩
    rintro other ⟨rest, rfl⟩ hother
    rw [length_take_numeralLength]
    exact (hother.length_le rest).2

/-- A scan takes the longest numeral that the text begins with, unless something goes on behind
    it. -/
theorem scan_eq_some_iff_longest {n : Nat} :
    scan text = some n ↔
      ∃ numeral rest, text = numeral ++ rest ∧ numeral.length = n ∧
        IsLongestNumeral text numeral ∧ EndsNumeral rest := by
  rw [scan_eq_some_iff]
  constructor
  · rintro ⟨hmantissa, rfl, hends⟩
    exact ⟨_, _, (List.take_append_drop _ _).symm, length_take_numeralLength text,
      isLongestNumeral_iff.mpr ⟨hmantissa, rfl⟩, hends⟩
  · rintro ⟨numeral, rest, htext, rfl, hlongest, hends⟩
    obtain ⟨hmantissa, hnumeral⟩ := isLongestNumeral_iff.mp hlongest
    refine ⟨hmantissa, by rw [hnumeral, length_take_numeralLength], ?_⟩
    rwa [htext, List.drop_left]

/-! ## Bytes -/

theorem toNat_le_of_isDigit {c : Char} (h : c.isDigit = true) : c.toNat ≤ 127 := by
  have hrange : 48 ≤ c.toNat ∧ c.toNat ≤ 57 := Char.isDigit_iff_toNat.mp h
  omega

theorem IsOptionalSign.toNat_le {sign : List Char} (h : IsOptionalSign sign) :
    ∀ c ∈ sign, c.toNat ≤ 127 := by
  rcases h with rfl | ⟨s, hs, rfl⟩
  · nofun
  · rw [isSign, Bool.or_eq_true, beq_iff_eq, beq_iff_eq] at hs
    rw [List.forall_mem_singleton]
    rcases hs with rfl | rfl
    · decide
    · decide

theorem IsMantissa.toNat_le {mantissa : List Char} (h : IsMantissa mantissa) :
    ∀ c ∈ mantissa, c.toNat ≤ 127 := by
  have hpoint : ('.' : Char).toNat ≤ 127 := by decide
  cases h with
  | whole hdigits => exact fun c hc => toNat_le_of_isDigit (hdigits.2 c hc)
  | pointed hdigits hfraction =>
    rw [List.forall_mem_append, List.forall_mem_cons]
    exact ⟨fun c hc => toNat_le_of_isDigit (hdigits.2 c hc), hpoint,
      fun c hc => toNat_le_of_isDigit (hfraction c hc)⟩
  | fraction hdigits =>
    rw [List.forall_mem_cons]
    exact ⟨hpoint, fun c hc => toNat_le_of_isDigit (hdigits.2 c hc)⟩

theorem IsExponent.toNat_le {exponent : List Char} (h : IsExponent exponent) :
    ∀ c ∈ exponent, c.toNat ≤ 127 := by
  cases h with
  | none => nofun
  | some he hsign hdigits =>
    rw [List.forall_mem_cons, List.forall_mem_append]
    refine ⟨?_, hsign.toNat_le, fun c hc => toNat_le_of_isDigit (hdigits.2 c hc)⟩
    rcases he with rfl | rfl
    · decide
    · decide

/-- The characters of a numeral take one byte each. -/
theorem IsNumeral.byteLength_eq {numeral : List Char} (h : IsNumeral numeral) :
    Text.byteLength numeral = numeral.length := by
  obtain ⟨sign, mantissa, exponent, rfl, hsign, hmantissa, hexponent⟩ := h
  have hascii : ∀ c ∈ sign ++ mantissa ++ exponent, c.toNat ≤ 127 := by
    rw [List.forall_mem_append, List.forall_mem_append]
    exact ⟨⟨hsign.toNat_le, hmantissa.toNat_le⟩, hexponent.toNat_le⟩
  generalize sign ++ mantissa ++ exponent = text at hascii
  induction text with
  | nil => rfl
  | cons c text ih =>
    rw [List.forall_mem_cons] at hascii
    have hc : c.utf8Size = 1 := Char.utf8Size_eq_one_iff.mpr hascii.1
    rw [Text.byteLength_cons, hc, ih hascii.2, List.length_cons, Nat.add_comm]

end Compositing.Number
