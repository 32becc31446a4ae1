import Compositing.Proofs.Number.Longest
import Compositing.Proofs.Text.Casing

/-! # Texts that are numbers

    A text is a number as a whole if it is a decimal numeral with or without a
    sign, or one of the words for infinity and for what is not a number.  Every
    numeral that is scanned is such a text, and its value is a number. -/

namespace Compositing.Number
variable {text rest : List Char} {f : Format} {negative : Bool}

/-! ## How numbers are written -/

/-- Digits; digits, a point and any number of digits; or any number of digits, a point and
    digits. -/
inductive IsUnsigned : (text : List Char) → Prop where
  | whole {digits : List Char} (h : IsDigits digits) : IsUnsigned digits
  | pointed {digits fraction : List Char} (h : IsDigits digits)
    (hfraction : ∀ c ∈ fraction, c.isDigit = true) : IsUnsigned (digits ++ '.' :: fraction)
  | fraction {digits fraction : List Char} (h : ∀ c ∈ digits, c.isDigit = true)
    (hfraction : IsDigits fraction) : IsUnsigned (digits ++ '.' :: fraction)

/-- The words for infinity and for what is not a number. -/
def named : List (List Char) := ["inf".toList, "infinity".toList, "nan".toList]

/-- A sign or nothing; then, in letters of any case, a word for infinity or for what is not a
    number, or a decimal numeral with an exponent or none. -/
inductive IsFloat : (text : List Char) → Prop where
  | named {sign word : List Char} (hsign : IsOptionalSign sign)
    (hword : Text.foldCase word ∈ named) : IsFloat (sign ++ word)
  | decimal {sign mantissa exponent : List Char} (hsign : IsOptionalSign sign)
    (hmantissa : IsUnsigned mantissa) (hexponent : IsExponent exponent) :
    IsFloat (sign ++ (mantissa ++ exponent))

/-- The digits in front of a fraction may be missing in either way of writing. -/
theorem isUnsigned_iff : IsUnsigned text ↔ IsMantissa text := by
  constructor
  · intro h
    cases h with
    | whole hdigits => exact .whole hdigits
    | pointed hdigits hfraction => exact .pointed hdigits hfraction
    | @fraction digits fraction hdigits hfraction =>
      by_cases hnil : digits = []
      · subst hnil
        exact .fraction hfraction
      · exact .pointed ⟨hnil, hdigits⟩ hfraction.2
  · intro h
    cases h with
    | whole hdigits => exact .whole hdigits
    | pointed hdigits hfraction => exact .pointed hdigits hfraction
    | fraction hdigits => exact @IsUnsigned.fraction [] _ (List.forall_mem_nil _) hdigits

/-- Numerals are numbers. -/
theorem IsNumeral.isFloat (h : IsNumeral text) : IsFloat text := by
  obtain ⟨sign, mantissa, exponent, rfl, hsign, hmantissa, hexponent⟩ := h
  rw [List.append_assoc]
  exact .decimal hsign (isUnsigned_iff.mpr hmantissa) hexponent

/-! ## Reading the parts -/

theorem takeWhile_digits_append {digits : List Char} (h : ∀ c ∈ digits, c.isDigit = true)
    (hrest : ∀ c ∈ rest.head?, c.isDigit = false) :
    (digits ++ rest).takeWhile Char.isDigit = digits ∧
      (digits ++ rest).dropWhile Char.isDigit = rest := by
  rw [List.takeWhile_append_of_pos h, List.dropWhile_append_of_pos h]
  cases rest with
  | nil => simp
  | cons c rest => simp [hrest c rfl]

/-- The value of digits, a point and digits, with what is behind them read as an exponent. -/
theorem readDecimal?_pointed {digits fraction : List Char} (h : ∀ c ∈ digits, c.isDigit = true)
    (hfraction : ∀ c ∈ fraction, c.isDigit = true) (hrest : ∀ c ∈ rest.head?, c.isDigit = false) :
    readDecimal? f negative (digits ++ '.' :: (fraction ++ rest)) =
      if digits = [] ∧ fraction = [] then none
      else (readExponent? rest).map fun exponent =>
        ofDecimal f negative (digitsValue (digits ++ fraction)) (exponent - fraction.length) := by
  have hpoint : ∀ c ∈ ('.' :: (fraction ++ rest)).head?, c.isDigit = false := by
    rintro c ⟨⟩
    rfl
  obtain ⟨htake, hdrop⟩ := takeWhile_digits_append h hpoint
  obtain ⟨htake', hdrop'⟩ := takeWhile_digits_append hfraction hrest
  rw [readDecimal?_eq]
  simp only [htake, hdrop, splitFraction, htake', hdrop', Bool.and_eq_true, List.isEmpty_iff]

/-- The value of digits without a point behind them, with what is behind read as an exponent. -/
theorem readDecimal?_whole {digits : List Char} (h : ∀ c ∈ digits, c.isDigit = true)
    (hrest : ∀ c ∈ rest.head?, c.isDigit = false) (hpoint : ∀ c ∈ rest.head?, c ≠ '.') :
    readDecimal? f negative (digits ++ rest) =
      if digits = [] then none
      else (readExponent? rest).map fun exponent =>
        ofDecimal f negative (digitsValue digits) exponent := by
  obtain ⟨htake, hdrop⟩ := takeWhile_digits_append h hrest
  have hsplit : splitFraction rest = ([], rest) := by
    unfold splitFraction
    split
    · exact absurd rfl (hpoint '.' rfl)
    · rfl
  rw [readDecimal?_eq]
  simp [htake, hdrop, hsplit]

/-- A text has a value as an exponent exactly if it is one, or empty. -/
theorem readExponent?_isSome_iff : (readExponent? text).isSome ↔ IsExponent text := by
  constructor
  · intro h
    cases text with
    | nil => exact .none
    | cons e rest =>
      obtain ⟨negative, hsplit⟩ := splitSign_eq rest
      rw [readExponent?] at h
      by_cases he : (e == 'e' || e == 'E') = true
      · rw [if_pos he, hsplit] at h
        simp only at h
        by_cases hdigits : ((rest.drop (signLength rest)).isEmpty ||
            !(rest.drop (signLength rest)).all Char.isDigit) = true
        · rw [if_pos hdigits] at h
          cases h
        · rw [Bool.or_eq_true, not_or, Bool.not_eq_true', Bool.not_eq_false] at hdigits
          rw [← List.take_append_drop (signLength rest) rest]
          exact .some (by simpa using he) (isOptionalSign_take rest)
            ⟨by simpa using hdigits.1, List.all_eq_true.mp hdigits.2⟩
      · rw [if_neg he] at h
        cases h
  · intro h
    have hle := h.length_le []
    rw [List.append_nil] at hle
    exact readExponent?_isSome (Nat.le_antisymm (exponentLength_le text) hle)

/-- An exponent begins with a letter. -/
theorem IsExponent.head (h : IsExponent text) : ∀ c ∈ text.head?, c.isDigit = false ∧ c ≠ '.' := by
  cases h with
  | none => nofun
  | some he _ _ =>
    rintro c ⟨⟩
    rcases he with rfl | rfl <;> decide

/-- A text has a value as an unsigned numeral exactly if it is a mantissa with an exponent or
    none. -/
theorem readDecimal?_isSome_iff :
    (readDecimal? f negative text).isSome ↔
      ∃ mantissa exponent, text = mantissa ++ exponent ∧ IsMantissa mantissa ∧
        IsExponent exponent := by
  constructor
  · intro h
    obtain ⟨digits, rest, rfl, hdigits, hrest, -⟩ := exists_digits text
    by_cases hpoint : ∃ tail, rest = '.' :: tail
    · obtain ⟨tail, rfl⟩ := hpoint
      obtain ⟨fraction, after, rfl, hfraction, hafter, -⟩ := exists_digits tail
      rw [readDecimal?_pointed hdigits hfraction hafter] at h
      split at h
      · cases h
      · rename_i hne
        rw [Option.isSome_map, readExponent?_isSome_iff] at h
        refine ⟨digits ++ '.' :: fraction, after, by simp, ?_, h⟩
        by_cases hnil : digits = []
        · subst hnil
          exact .fraction ⟨fun hfraction => hne ⟨rfl, hfraction⟩, hfraction⟩
        · exact .pointed ⟨hnil, hdigits⟩ hfraction
    · have hhead : ∀ c ∈ rest.head?, c ≠ '.' := by
        rintro c hc rfl
        obtain ⟨tail, htail⟩ := List.head?_eq_some_iff.mp (Option.mem_def.mp hc)
        exact hpoint ⟨tail, htail⟩
      rw [readDecimal?_whole hdigits hrest hhead] at h
      split at h
      · cases h
      · rename_i hne
        rw [Option.isSome_map, readExponent?_isSome_iff] at h
        exact ⟨digits, rest, rfl, .whole ⟨hne, hdigits⟩, h⟩
  · rintro ⟨mantissa, exponent, rfl, hmantissa, hexponent⟩
    have hlength := hmantissa.mantissaLength_append (fun c hc => (hexponent.head c hc).1)
      fun c hc => (hexponent.head c hc).2
    have hle := hexponent.length_le []
    rw [List.append_nil] at hle
    apply readDecimal?_isSome
    · rw [hlength]
      exact Nat.ne_of_gt hmantissa.length_pos
    · rw [hlength, List.drop_left]
      exact Nat.le_antisymm (exponentLength_le exponent) hle

/-! ## Reading a whole text -/

theorem mem_named_iff {word : List Char} :
    word ∈ named ↔ (word = "inf".toList ∨ word = "infinity".toList) ∨ word = "nan".toList := by
  simp only [named, List.mem_cons, List.not_mem_nil, or_false, or_assoc]

/-- A word that is a value begins with a letter. -/
theorem head_of_named {word : List Char} (h : Text.foldCase word ∈ named) :
    ∃ c rest, word = c :: rest ∧ isSign c = false ∧ c.isDigit = false ∧ c ≠ '.' := by
  cases word with
  | nil => simp [named, Text.foldCase] at h
  | cons c rest =>
    have hletter : c.toLower = 'i' ∨ c.toLower = 'n' := by
      have hfold : Text.foldCase (c :: rest) = c.toLower :: Text.foldCase rest := rfl
      rw [hfold] at h
      simp only [named, List.mem_cons, List.not_mem_nil, or_false] at h
      rcases h with h | h | h
      · exact .inl (List.cons.inj h).1
      · exact .inl (List.cons.inj h).1
      · exact .inr (List.cons.inj h).1
    refine ⟨c, rest, rfl, ?_, ?_, ?_⟩
    · rw [isSign, Bool.or_eq_false_iff, beq_eq_false_iff_ne, beq_eq_false_iff_ne]
      constructor
      · rintro rfl
        revert hletter
        decide
      · rintro rfl
        revert hletter
        decide
    · rw [← Bool.not_eq_true, Text.isDigit_iff]
      intro hrange
      have hlower : c.toLower = c := by
        rw [← Char.toNat_inj, Text.toNat_toLower, if_neg]
        omega
      rw [hlower] at hletter
      rcases hletter with rfl | rfl
      · revert hrange
        decide
      · revert hrange
        decide
    · rintro rfl
      revert hletter
      decide

/-- Reading by what is behind the sign. -/
theorem read?_eq {body : List Char} (h : splitSign text = (negative, body)) :
    read? f text =
      if Text.foldCase body = "inf".toList ∨ Text.foldCase body = "infinity".toList then
        some (.infinite negative)
      else if Text.foldCase body = "nan".toList then some .nan
      else readDecimal? f negative body := by
  have hword : ∀ s : String, String.ofList (body.map Char.toLower) = s ↔
      Text.foldCase body = s.toList := by
    intro s
    rw [← String.toList_inj, String.toList_ofList, Text.foldCase]
  unfold read?
  rw [h]
  simp only [hword, Bool.or_eq_true, decide_eq_true_eq]

/-- A sign in front of what does not begin with one is taken off. -/
theorem splitSign_append {sign body : List Char} (hsign : IsOptionalSign sign)
    (hbody : ∀ c ∈ body.head?, isSign c = false) :
    splitSign (sign ++ body) = (sign == ['-'], body) := by
  rcases hsign with rfl | ⟨s, hs, rfl⟩
  · cases body with
    | nil => rfl
    | cons c body => simp [splitSign, hbody c rfl]
  · simp [splitSign, hs]

/-- A decimal numeral behind a sign, or none, is read by its parts. -/
theorem read?_append {sign body : List Char} (hsign : IsOptionalSign sign)
    (hbody : ∀ c ∈ body.head?, c.isDigit = true ∨ c = '.') :
    read? f (sign ++ body) = readDecimal? f (sign == ['-']) body := by
  have hsplit : splitSign (sign ++ body) = (sign == ['-'], body) :=
    splitSign_append hsign fun c hc => isSign_of_head (hbody c hc)
  have hnot : Text.foldCase body ∉ named := by
    intro hnamed
    obtain ⟨c, rest, rfl, -, hdigit, hpoint⟩ := head_of_named hnamed
    rcases hbody c rfl with hc | hc
    · rw [hdigit] at hc
      cases hc
    · exact hpoint hc
  rw [mem_named_iff, not_or] at hnot
  rw [read?_eq hsplit, if_neg hnot.1, if_neg hnot.2]

/-- A text has a value exactly if it is written as a number. -/
theorem read?_isSome_iff : (read? f text).isSome ↔ IsFloat text := by
  constructor
  · intro h
    obtain ⟨negative, hsplit⟩ := splitSign_eq text
    have hsign := isOptionalSign_take text
    rw [← List.take_append_drop (signLength text) text]
    rw [read?_eq hsplit] at h
    split at h
    · rename_i hinfinite
      exact .named hsign (mem_named_iff.mpr (.inl hinfinite))
    · split at h
      · rename_i hnan
        exact .named hsign (mem_named_iff.mpr (.inr hnan))
      · obtain ⟨mantissa, exponent, hbody, hmantissa, hexponent⟩ := readDecimal?_isSome_iff.mp h
        rw [hbody]
        exact .decimal hsign (isUnsigned_iff.mpr hmantissa) hexponent
  · intro h
    cases h with
    | named hsign hword =>
      obtain ⟨c, rest, rfl, hc, -, -⟩ := head_of_named hword
      rw [read?_eq (splitSign_append hsign (by rintro d ⟨⟩; exact hc))]
      split
      · rfl
      · rename_i hinfinite
        rw [if_pos ((mem_named_iff.mp hword).resolve_left hinfinite)]
        rfl
    | decimal hsign hmantissa hexponent =>
      rw [isUnsigned_iff] at hmantissa
      rw [read?_append hsign (hmantissa.head _), readDecimal?_isSome_iff]
      exact ⟨_, _, rfl, hmantissa, hexponent⟩

/-! ## Values of numerals -/

/-- Rounding makes a number of numbers. -/
theorem ofDecimal_ne_nan (f : Format) (negative : Bool) (coefficient : Nat) (exponent : Int) :
    ofDecimal f negative coefficient exponent ≠ .nan := by
  have hite : ∀ (p : Prop) [Decidable p] (x y : Number), x ≠ .nan → y ≠ .nan →
      (if p then x else y) ≠ .nan := by
    intro p _ x y hx hy
    split
    · exact hx
    · exact hy
  have hratio : ∀ n d, ofRatio f negative n d ≠ .nan := fun n d =>
    hite _ _ _ nofun (hite _ _ _ nofun nofun)
  exact hite _ _ _ nofun (hite _ _ _ nofun (hite _ _ _ nofun (hratio _ _)))

/-- The value of a numeral is a number. -/
theorem IsNumeral.exists_value (h : IsNumeral text) (f : Format) :
    ∃ x, read? f text = some x ∧ x ≠ .nan := by
  obtain ⟨x, hx⟩ := Option.isSome_iff_exists.mp (read?_isSome_iff (f := f) |>.mpr h.isFloat)
  refine ⟨x, hx, ?_⟩
  obtain ⟨sign, mantissa, exponent, rfl, hsign, hmantissa, -⟩ := h
  rw [List.append_assoc, read?_append hsign (hmantissa.head _)] at hx
  simp only [readDecimal?_eq, Option.ite_none_left_eq_some, Option.map_eq_some_iff] at hx
  obtain ⟨-, e, -, rfl⟩ := hx
  exact ofDecimal_ne_nan _ _ _ _

end Compositing.Number
