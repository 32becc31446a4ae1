import Compositing.Number.Numeral

/-! # Scanning and reading numerals

    A text that is scanned as a numeral whole is scanned the same way in front
    of anything that cannot go on with it, and it has a value.  Both follow the
    three parts of a numeral: sign, mantissa and exponent. -/

namespace Compositing.Number

/-- The text cannot go on with a numeral. -/
def EndsNumeral (rest : List Char) : Prop := ∀ c ∈ rest.head?, continuesWord c = false

/-! ## Digits -/

theorem isDigit_of_continuesWord {c : Char} (h : continuesWord c = false) : c.isDigit = false := by
  unfold continuesWord Char.isAlphanum at h
  simp only [Bool.or_eq_false_iff] at h
  exact h.1.1.2

/-- What does not go on with a numeral adds no digit. -/
theorem digitCount_append {rest : List Char} (hrest : EndsNumeral rest) (text : List Char) :
    digitCount (text ++ rest) = digitCount text := by
  induction text with
  | nil =>
    cases rest with
    | nil => rfl
    | cons c rest =>
      have hc : c.isDigit = false := isDigit_of_continuesWord (hrest c (by simp))
      simp [digitCount, hc]
  | cons c text ih =>
    by_cases hc : c.isDigit = true
    · unfold digitCount at ih ⊢
      simp [hc, ih]
    · simp [digitCount, hc]

theorem digitCount_le (text : List Char) : digitCount text ≤ text.length :=
  (List.takeWhile_sublist _).length_le

/-- What follows the digits is what is left of them. -/
theorem drop_digitCount (text : List Char) :
    text.drop (digitCount text) = text.dropWhile Char.isDigit := by
  induction text with
  | nil => rfl
  | cons c text ih =>
    by_cases hc : c.isDigit = true
    · simp [digitCount, hc] at ih ⊢
      exact ih
    · simp [digitCount, hc]

/-! ## The mantissa -/

/-- The mantissa after the digits before the point. -/
theorem mantissaLength_eq (text : List Char) :
    mantissaLength text =
      match text.drop (digitCount text) with
      | '.' :: rest =>
        if digitCount text + digitCount rest = 0 then 0
        else digitCount text + 1 + digitCount rest
      | _ => digitCount text := rfl

theorem mantissaLength_le (text : List Char) : mantissaLength text ≤ text.length := by
  have hle := digitCount_le text
  have hlength : (text.drop (digitCount text)).length = text.length - digitCount text :=
    List.length_drop
  rw [mantissaLength_eq]
  split
  · rename_i rest htail
    have hrest := digitCount_le rest
    have htailLength : rest.length + 1 = text.length - digitCount text := by
      rw [← hlength, htail, List.length_cons]
    by_cases hzero : digitCount text + digitCount rest = 0
    · rw [if_pos hzero]
      omega
    · rw [if_neg hzero]
      omega
  · exact hle

/-- What does not go on with a numeral adds nothing to the mantissa. -/
theorem mantissaLength_append {rest : List Char} (hrest : EndsNumeral rest) (text : List Char) :
    mantissaLength (text ++ rest) = mantissaLength text := by
  rw [mantissaLength_eq, mantissaLength_eq, digitCount_append hrest,
    List.drop_append_of_le_length (digitCount_le text)]
  cases text.drop (digitCount text) with
  | nil =>
    cases rest with
    | nil => rfl
    | cons c rest =>
      have hc : c ≠ '.' := by
        rintro rfl
        exact absurd (hrest '.' (by simp)) (by decide)
      simp [hc]
  | cons c tail =>
    by_cases hc : c = '.'
    · rw [hc]
      simp only [List.cons_append, digitCount_append hrest]
    · simp [hc]

/-! ## The sign and the exponent -/

/-- How many characters the sign takes. -/
def signLength (text : List Char) : Nat := if text.head?.any isSign then 1 else 0

theorem signLength_le {text : List Char} (h : text ≠ []) : signLength text ≤ text.length := by
  have hpos := List.length_pos_iff.mpr h
  unfold signLength
  split
  · omega
  · omega

theorem signLength_append {text : List Char} (h : text ≠ []) (rest : List Char) :
    signLength (text ++ rest) = signLength text := by
  cases text with
  | nil => exact absurd rfl h
  | cons c text => rfl

/-- An exponent is a letter, a sign and digits. -/
theorem exponentLength_cons (c : Char) (rest : List Char) :
    exponentLength (c :: rest) =
      if c == 'e' || c == 'E' then
        match digitCount (rest.drop (signLength rest)) with
        | 0 => 0
        | digits => 1 + signLength rest + digits
      else 0 := rfl

/-- The parts of an exponent that is a text as a whole. -/
theorem parts_of_exponent {c : Char} {rest : List Char}
    (h : exponentLength (c :: rest) = (c :: rest).length) :
    (c == 'e' || c == 'E') = true ∧ rest ≠ [] ∧ rest.drop (signLength rest) ≠ [] ∧
      digitCount (rest.drop (signLength rest)) = (rest.drop (signLength rest)).length := by
  rw [exponentLength_cons, List.length_cons] at h
  by_cases he : (c == 'e' || c == 'E') = true
  · rw [if_pos he] at h
    have hlength : (rest.drop (signLength rest)).length = rest.length - signLength rest :=
      List.length_drop
    cases hdigits : digitCount (rest.drop (signLength rest)) with
    | zero =>
      rw [hdigits] at h
      simp at h
    | succ count =>
      rw [hdigits] at h
      change 1 + signLength rest + (count + 1) = rest.length + 1 at h
      refine ⟨he, ?_, ?_, ?_⟩
      · intro hnil
        rw [hnil] at hdigits
        simp [digitCount] at hdigits
      · intro hnil
        rw [hnil] at hdigits
        simp [digitCount] at hdigits
      · rw [hlength]
        omega
  · rw [if_neg he] at h
    omega

theorem exponentLength_le (text : List Char) : exponentLength text ≤ text.length := by
  cases text with
  | nil => exact Nat.le_refl 0
  | cons c rest =>
    have hle := digitCount_le (rest.drop (signLength rest))
    rw [List.length_drop] at hle
    rw [exponentLength_cons, List.length_cons]
    split
    · cases hdigits : digitCount (rest.drop (signLength rest)) with
      | zero => exact Nat.zero_le _
      | succ count =>
        rw [hdigits] at hle
        show 1 + signLength rest + (count + 1) ≤ rest.length + 1
        omega
    · exact Nat.zero_le _

/-- An exponent that is a text as a whole is one in front of what cannot go on with it. -/
theorem exponentLength_append {rest : List Char} (hrest : EndsNumeral rest) {text : List Char}
    (htext : exponentLength text = text.length) :
    exponentLength (text ++ rest) = text.length := by
  cases text with
  | nil =>
    cases rest with
    | nil => rfl
    | cons c rest =>
      have hc := hrest c (by simp)
      have he : ¬ (c == 'e' || c == 'E') = true := by
        intro he
        rw [Bool.or_eq_true, beq_iff_eq, beq_iff_eq] at he
        rcases he with rfl | rfl
        · exact absurd hc (by decide)
        · exact absurd hc (by decide)
      rw [List.nil_append, exponentLength_cons, if_neg he]
      rfl
  | cons c text =>
    -- the exponent has a digit, so its sign is its own
    obtain ⟨_, hne, _, _⟩ := parts_of_exponent htext
    rw [← htext, List.cons_append, exponentLength_cons, exponentLength_cons,
      signLength_append hne, List.drop_append_of_le_length (signLength_le hne),
      digitCount_append hrest]

/-! ## Numerals -/

/-- Scanning by the three parts of a numeral. -/
theorem scan_eq (text : List Char) :
    scan text =
      if mantissaLength (text.drop (signLength text)) = 0 then none
      else
        let length := signLength text + mantissaLength (text.drop (signLength text))
        if (text.drop (length + exponentLength (text.drop length))).head?.any continuesWord then
          none
        else some (length + exponentLength (text.drop length)) := rfl

/-- The parts of a numeral take no more than there is. -/
theorem numeral_le (text : List Char) :
    signLength text + mantissaLength (text.drop (signLength text)) +
        exponentLength
          (text.drop (signLength text + mantissaLength (text.drop (signLength text)))) ≤
      text.length := by
  by_cases hne : text = []
  · subst hne
    exact Nat.le_refl 0
  have hsign := signLength_le hne
  have hmantissa := mantissaLength_le (text.drop (signLength text))
  have hexponent := exponentLength_le
    (text.drop (signLength text + mantissaLength (text.drop (signLength text))))
  rw [List.length_drop] at hmantissa hexponent
  omega

theorem scan_le {text : List Char} {length : Nat} (h : scan text = some length) :
    length ≤ text.length := by
  have hle := numeral_le text
  rw [scan_eq] at h
  split at h
  · cases h
  · simp only at h
    split at h
    · cases h
    · have := Option.some.inj h
      omega

/-- The parts of a text that is scanned as a numeral whole: after the sign a mantissa, and after
    it nothing but an exponent. -/
theorem parts_of_scan {text : List Char} (h : scan text = some text.length) :
    mantissaLength (text.drop (signLength text)) ≠ 0 ∧
      exponentLength (text.drop (signLength text + mantissaLength (text.drop (signLength text)))) =
        (text.drop
          (signLength text + mantissaLength (text.drop (signLength text)))).length := by
  rw [scan_eq] at h
  by_cases hzero : mantissaLength (text.drop (signLength text)) = 0
  · rw [if_pos hzero] at h
    cases h
  · rw [if_neg hzero] at h
    simp only at h
    split at h
    · cases h
    · have hlength := Option.some.inj h
      rw [List.length_drop]
      exact ⟨hzero, by omega⟩

/-- A text that is scanned as a numeral whole is one in front of what cannot go on with it. -/
theorem scan_append {text rest : List Char} (h : scan text = some text.length)
    (hrest : EndsNumeral rest) : scan (text ++ rest) = some text.length := by
  obtain ⟨hmantissa, hexponent⟩ := parts_of_scan h
  have hne : text ≠ [] := by
    rintro rfl
    exact hmantissa rfl
  have hsign := signLength_append hne rest
  have hsignLe := signLength_le hne
  have hmantissaLe := mantissaLength_le (text.drop (signLength text))
  rw [List.length_drop] at hmantissaLe
  have hbody : mantissaLength ((text ++ rest).drop (signLength text)) =
      mantissaLength (text.drop (signLength text)) := by
    rw [List.drop_append_of_le_length hsignLe, mantissaLength_append hrest]
  generalize hlength : signLength text + mantissaLength (text.drop (signLength text)) = length
    at hexponent
  have htail : (text ++ rest).drop length = text.drop length ++ rest :=
    List.drop_append_of_le_length (by omega)
  have htailLength : (text.drop length).length = text.length - length := List.length_drop
  have hend : (text ++ rest).drop (length + (text.drop length).length) = rest := by
    rw [← List.drop_drop, htail, List.drop_left]
  have hcontinues : rest.head?.any continuesWord = false := by
    cases rest with
    | nil => rfl
    | cons c rest => simpa using hrest c (by simp)
  rw [scan_eq, hsign, hbody, if_neg hmantissa, hlength]
  simp only [htail, exponentLength_append hrest hexponent, hend, hcontinues, Bool.false_eq_true,
    if_false, Option.some.injEq]
  omega

/-! ## Values -/

/-- Taking the sign off leaves what is behind it. -/
theorem splitSign_eq (text : List Char) :
    ∃ negative, splitSign text = (negative, text.drop (signLength text)) := by
  cases text with
  | nil => exact ⟨false, rfl⟩
  | cons c rest =>
    by_cases hc : isSign c = true
    · exact ⟨c == '-', by simp [splitSign, signLength, hc]⟩
    · exact ⟨false, by simp [splitSign, signLength, hc]⟩

/-- Digits and nothing else are digits throughout. -/
theorem all_isDigit_of_digitCount {text : List Char} (h : digitCount text = text.length) :
    text.all Char.isDigit = true := by
  have htake : text.takeWhile Char.isDigit = text :=
    (List.takeWhile_prefix _).eq_of_length h
  rw [← htake, List.all_takeWhile]

/-- An exponent that is a text as a whole has a value. -/
theorem readExponent?_isSome {text : List Char} (h : exponentLength text = text.length) :
    (readExponent? text).isSome := by
  cases text with
  | nil => rfl
  | cons c rest =>
    obtain ⟨he, _, hne, hdigits⟩ := parts_of_exponent h
    obtain ⟨negative, hsplit⟩ := splitSign_eq rest
    have hempty : (rest.drop (signLength rest)).isEmpty = false := by
      simpa using hne
    have hall := all_isDigit_of_digitCount hdigits
    simp [readExponent?, he, hsplit, hempty, hall]

theorem isEmpty_takeWhile_isDigit (text : List Char) :
    (text.takeWhile Char.isDigit).isEmpty = decide (digitCount text = 0) := by
  unfold digitCount
  cases text.takeWhile Char.isDigit with
  | nil => rfl
  | cons c rest => rfl

/-- A mantissa and nothing but an exponent after it have a value. -/
theorem readDecimal?_isSome (f : Format) (negative : Bool) {body : List Char}
    (hmantissa : mantissaLength body ≠ 0)
    (hexponent : exponentLength (body.drop (mantissaLength body)) =
      (body.drop (mantissaLength body)).length) :
    (readDecimal? f negative body).isSome := by
  rw [mantissaLength_eq] at hmantissa hexponent
  unfold readDecimal?
  have hwhole := isEmpty_takeWhile_isDigit body
  rw [← drop_digitCount]
  -- by what follows the whole part: nothing, a point with a fraction, or the exponent
  cases htail : body.drop (digitCount body) with
  | nil =>
    rw [htail] at hmantissa hexponent
    simp only at hmantissa hexponent
    simp [hwhole, hmantissa, readExponent?]
  | cons c tail =>
    rw [htail] at hmantissa hexponent
    by_cases hc : c = '.'
    · subst hc
      simp only at hmantissa hexponent
      have hzero : ¬ digitCount body + digitCount tail = 0 := by
        intro hzero
        rw [if_pos hzero] at hmantissa
        exact hmantissa rfl
      rw [if_neg hzero] at hexponent
      have hdrop : body.drop (digitCount body + 1 + digitCount tail) =
          tail.dropWhile Char.isDigit := by
        rw [Nat.add_assoc, ← List.drop_drop, htail, Nat.add_comm, List.drop_succ_cons,
          drop_digitCount]
      rw [hdrop] at hexponent
      have hfraction := isEmpty_takeWhile_isDigit tail
      obtain ⟨exponent, hvalue⟩ := Option.isSome_iff_exists.mp (readExponent?_isSome hexponent)
      simp only [hwhole, hfraction, hvalue]
      rw [if_neg]
      · rfl
      · simp only [Bool.and_eq_true, decide_eq_true_eq]
        omega
    · have hnone : (match c :: tail with
          | '.' :: rest =>
            if digitCount body + digitCount rest = 0 then 0
            else digitCount body + 1 + digitCount rest
          | _ => digitCount body) = digitCount body := by
        simp [hc]
      rw [hnone] at hmantissa hexponent
      rw [htail] at hexponent
      obtain ⟨exponent, hvalue⟩ := Option.isSome_iff_exists.mp (readExponent?_isSome hexponent)
      simp [hwhole, hmantissa, hc, hvalue]

/-- A text that is scanned as a numeral whole has a value. -/
theorem read?_isSome {text : List Char} (f : Format) (h : scan text = some text.length) :
    (read? f text).isSome := by
  obtain ⟨hmantissa, hexponent⟩ := parts_of_scan h
  obtain ⟨negative, hsplit⟩ := splitSign_eq text
  rw [← List.drop_drop] at hexponent
  unfold read?
  rw [hsplit]
  simp only
  split
  · rfl
  · split
    · rfl
    · exact readDecimal?_isSome f negative hmantissa hexponent

end Compositing.Number
