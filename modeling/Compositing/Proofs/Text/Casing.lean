import Compositing.Proofs.Number.Scan
import Compositing.Proofs.Text.Advance
import Compositing.Proofs.Text.Folding

/-! # Texts without capitals

    A small letter in place of a capital keeps what a text is made of: the
    length in characters and in bytes, white space, line ends, digits and all
    that is no letter.  So the positions of a text, and its comments, are those
    of the text without capitals, and so are its numerals. -/

namespace Compositing

namespace Text

/-! ## Characters -/

/-- A character that is no letter is the small letter of itself only. -/
theorem toLower_eq_iff {c d : Char} (hd : d.isAlpha = false) : c.toLower = d ↔ c = d := by
  rw [← Bool.not_eq_true, isAlpha_iff] at hd
  rw [← Char.toNat_inj, ← Char.toNat_inj (c := c), toNat_toLower]
  split <;> omega

/-- What changes is a letter, and becomes one. -/
theorem isAlpha_of_toLower_ne {c : Char} (h : c.toLower ≠ c) :
    c.isAlpha = true ∧ c.toLower.isAlpha = true := by
  rw [ne_eq, ← Char.toNat_inj, toNat_toLower] at h
  rw [isAlpha_iff, isAlpha_iff, toNat_toLower]
  split at h
  · rw [if_pos ‹_›]
    omega
  · exact absurd rfl h

/-- White space has no letters. -/
theorem isAlpha_of_isBlank {c : Char} (h : isBlank c = true) : c.isAlpha = false := by
  rw [← Bool.not_eq_true]
  intro halpha
  have hword : isWordChar c = true := by
    simp [isWordChar, Char.isAlphanum, halpha]
  rw [isBlank_of_isWordChar hword] at h
  cases h

/-- Only capitals change, and they have one byte as small letters too. -/
@[simp] theorem utf8Size_toLower (c : Char) : c.toLower.utf8Size = c.utf8Size := by
  -- one byte is what the code points below 128 take, and a capital stays among them
  have hone : ∀ d : Char, d.utf8Size = 1 ↔ d.toNat ≤ 127 := by
    intro d
    rw [Char.utf8Size_eq_one_iff, UInt32.le_iff_toNat_le]
    rfl
  by_cases hcapital : 65 ≤ c.toNat ∧ c.toNat ≤ 90
  · have hlower : c.toLower.toNat = c.toNat + 32 := by
      rw [toNat_toLower, if_pos hcapital]
    rw [(hone c).mpr (by omega), (hone c.toLower).mpr (by omega)]
  · have hsame : c.toLower = c := by
      rw [← Char.toNat_inj, toNat_toLower, if_neg hcapital]
    rw [hsame]

/-- The predicate does not tell capitals from small letters. -/
def IgnoresCase (keep : Char → Bool) : Prop := ∀ c, keep c.toLower = keep c

theorem ignoresCase_beq {d : Char} (hd : d.isAlpha = false) : IgnoresCase (· == d) := by
  intro c
  rw [Bool.eq_iff_iff, beq_iff_eq, beq_iff_eq, toLower_eq_iff hd]

/-- Nor does membership among characters of which none is a letter. -/
theorem ignoresCase_contains {chars : List Char} (h : ∀ d ∈ chars, d.isAlpha = false) :
    IgnoresCase chars.contains := by
  intro c
  rw [Bool.eq_iff_iff, List.contains_iff_mem, List.contains_iff_mem]
  constructor
  · intro hmem
    rwa [(toLower_eq_iff (h _ hmem)).mp rfl]
  · intro hmem
    rwa [(toLower_eq_iff (h _ hmem)).mpr rfl]

theorem ignoresCase_isBlank : IgnoresCase isBlank := isBlank_toLower

theorem ignoresCase_isDigit : IgnoresCase Char.isDigit := by
  intro c
  rw [Bool.eq_iff_iff, isDigit_iff, isDigit_iff, toNat_toLower]
  split <;> omega

theorem ignoresCase_isAlphanum : IgnoresCase Char.isAlphanum := by
  intro c
  have halpha : c.toLower.isAlpha = c.isAlpha := by
    rw [Bool.eq_iff_iff, isAlpha_iff, isAlpha_iff, toNat_toLower]
    split <;> omega
  rw [Char.isAlphanum, Char.isAlphanum, halpha, ignoresCase_isDigit c]

section
variable {keep keep' : Char → Bool}

theorem IgnoresCase.not (h : IgnoresCase keep) : IgnoresCase fun c => !keep c := by
  intro c
  simp only [h c]

theorem IgnoresCase.and (h : IgnoresCase keep) (h' : IgnoresCase keep') :
    IgnoresCase fun c => keep c && keep' c := by
  intro c
  simp only [h c, h' c]

theorem IgnoresCase.or (h : IgnoresCase keep) (h' : IgnoresCase keep') :
    IgnoresCase fun c => keep c || keep' c := by
  intro c
  simp only [h c, h' c]

/-! ## Parts of a text -/

theorem takeWhile_foldCase (h : IgnoresCase keep) (text : List Char) :
    (foldCase text).takeWhile keep = foldCase (text.takeWhile keep) := by
  have hkeep : keep ∘ Char.toLower = keep := funext h
  rw [foldCase, List.takeWhile_map, hkeep]
  rfl

theorem dropWhile_foldCase (h : IgnoresCase keep) (text : List Char) :
    (foldCase text).dropWhile keep = foldCase (text.dropWhile keep) := by
  have hkeep : keep ∘ Char.toLower = keep := funext h
  rw [foldCase, List.dropWhile_map, hkeep]
  rfl

theorem any_head_foldCase (h : IgnoresCase keep) (text : List Char) :
    (foldCase text).head?.any keep = text.head?.any keep := by
  cases text with
  | nil => rfl
  | cons c rest => exact h c

theorem all_foldCase (h : IgnoresCase keep) (text : List Char) :
    (foldCase text).all keep = text.all keep := by
  have hkeep : keep ∘ Char.toLower = keep := funext h
  rw [foldCase, List.all_map, hkeep]

end

@[simp] theorem length_foldCase (text : List Char) : (foldCase text).length = text.length :=
  List.length_map _

@[simp] theorem isEmpty_foldCase (text : List Char) : (foldCase text).isEmpty = text.isEmpty := by
  cases text <;> rfl

@[simp] theorem take_foldCase (n : Nat) (text : List Char) :
    (foldCase text).take n = foldCase (text.take n) :=
  List.map_take.symm

@[simp] theorem drop_foldCase (n : Nat) (text : List Char) :
    (foldCase text).drop n = foldCase (text.drop n) :=
  List.map_drop.symm

@[simp] theorem foldCase_foldCase (text : List Char) :
    foldCase (foldCase text) = foldCase text := by
  have htwice : Char.toLower ∘ Char.toLower = Char.toLower := funext toLower_toLower
  rw [foldCase, foldCase, List.map_map, htwice]

theorem head?_foldCase_eq {d : Char} (hd : d.isAlpha = false) (text : List Char) :
    (foldCase text).head? = some d ↔ text.head? = some d := by
  cases text with
  | nil => exact Iff.rfl
  | cons c rest =>
    show some c.toLower = some d ↔ some c = some d
    rw [Option.some.injEq, Option.some.injEq, toLower_eq_iff hd]

theorem head?_foldCase_beq {d : Char} (hd : d.isAlpha = false) (text : List Char) :
    ((foldCase text).head? == some d) = (text.head? == some d) := by
  rw [Bool.eq_iff_iff, beq_iff_eq, beq_iff_eq, head?_foldCase_eq hd]

@[simp] theorem byteLength_foldCase (text : List Char) :
    byteLength (foldCase text) = byteLength text := by
  induction text with
  | nil => rfl
  | cons c rest ih =>
    show c.toLower.utf8Size + byteLength (foldCase rest) = c.utf8Size + byteLength rest
    rw [utf8Size_toLower, ih]

@[simp] theorem newlines_foldCase (text : List Char) :
    newlines (foldCase text) = newlines text := by
  have hline : (fun c => (c == '\n')) ∘ Char.toLower = fun c => (c == '\n') :=
    funext (ignoresCase_beq (by decide))
  rw [newlines, newlines, foldCase, List.count, List.countP_map, hline]

@[simp] theorem trimStart_foldCase (text : List Char) :
    trimStart (foldCase text) = foldCase (trimStart text) :=
  dropWhile_foldCase ignoresCase_isBlank text

@[simp] theorem trimEnd_foldCase (text : List Char) :
    trimEnd (foldCase text) = foldCase (trimEnd text) := by
  have hreverse : ∀ text, (foldCase text).reverse = foldCase text.reverse := by
    intro text
    exact List.map_reverse.symm
  rw [trimEnd, hreverse, dropWhile_foldCase ignoresCase_isBlank, hreverse, trimEnd]

theorem firstWord?_foldCase (text : List Char) :
    firstWord? (foldCase text) = (firstWord? text).map foldCase := by
  unfold firstWord?
  rw [trimStart_foldCase, takeWhile_foldCase ignoresCase_isBlank.not]
  cases (trimStart text).takeWhile (!isBlank ·) <;> rfl

end Text

/-! ## Positions -/

namespace Position
open Text

/-- The position in the text without capitals. -/
def folded (p : Position) : Position := { p with rest := foldCase p.rest }

@[simp] theorem folded_rest (p : Position) : p.folded.rest = foldCase p.rest := rfl

@[simp] theorem folded_offset (p : Position) : p.folded.offset = p.offset := rfl

@[simp] theorem folded_advance (n : Nat) (p : Position) :
    p.folded.advance n = (p.advance n).folded := by
  simp only [advance_eq, folded, take_foldCase, drop_foldCase, byteLength_foldCase,
    newlines_foldCase]

/-- Neither white space nor the marks of comments have letters. -/
theorem triviaLength_go_foldCase (inComment : Bool) (taken : Nat) (text : List Char) :
    triviaLength.go inComment taken (foldCase text) = triviaLength.go inComment taken text := by
  induction text generalizing inComment taken with
  | nil => rfl
  | cons c rest ih =>
    -- each test of a step has the same answer for the small letter
    have hline : (c.toLower != '\n') = (c != '\n') := (ignoresCase_beq (by decide)).not c
    have hslash : (c.toLower == '/') = (c == '/') := ignoresCase_beq (by decide) c
    have hnext : ((foldCase rest).head? == some '/') = (rest.head? == some '/') :=
      head?_foldCase_beq (by decide) rest
    show triviaLength.go inComment taken (c.toLower :: foldCase rest) = _
    simp only [triviaLength.go, hline, hslash, hnext, isBlank_toLower, ih]

@[simp] theorem folded_skipTrivia (p : Position) : p.folded.skipTrivia = p.skipTrivia.folded := by
  rw [skipTrivia, folded_advance, folded_rest, triviaLength, triviaLength_go_foldCase]
  rfl

theorem charactersWithin_go_foldCase (bytes taken : Nat) (text : List Char) :
    charactersWithin.go bytes taken (foldCase text) = charactersWithin.go bytes taken text := by
  induction text generalizing bytes taken with
  | nil => rfl
  | cons c rest ih =>
    show charactersWithin.go bytes taken (c.toLower :: foldCase rest) = _
    simp only [charactersWithin.go, utf8Size_toLower, ih]

theorem folded_forwardTo (offset : Nat) (p : Position) :
    p.folded.forwardTo offset = (p.forwardTo offset).folded := by
  rw [forwardTo, advanceBytes, folded_advance, folded_rest, charactersWithin,
    charactersWithin_go_foldCase]
  rfl

end Position

/-! ## Numerals -/

namespace Number
open Text

theorem ignoresCase_isSign : IgnoresCase isSign :=
  (ignoresCase_beq (by decide)).or (ignoresCase_beq (by decide))

/-- Both letters begin an exponent. -/
theorem beginsExponent_toLower (c : Char) :
    (c.toLower == 'e' || c.toLower == 'E') = (c == 'e' || c == 'E') := by
  rw [Bool.eq_iff_iff]
  simp only [Bool.or_eq_true, beq_iff_eq, ← Char.toNat_inj, toNat_toLower, Char.reduceToNat]
  split <;> omega

theorem ignoresCase_continuesWord : IgnoresCase continuesWord :=
  (ignoresCase_isAlphanum.or (ignoresCase_beq (by decide))).or (ignoresCase_beq (by decide))

/-- Digits have no case. -/
theorem foldCase_of_all_isDigit {digits : List Char} (h : digits.all Char.isDigit = true) :
    foldCase digits = digits := by
  refine (List.map_congr_left ?_).trans (List.map_id digits)
  intro c hc
  have hdigit := (isDigit_iff c).mp (List.all_eq_true.mp h c hc)
  rw [← Char.toNat_inj, toNat_toLower, if_neg (by omega)]
  rfl

theorem digits_foldCase (text : List Char) :
    (foldCase text).takeWhile Char.isDigit = text.takeWhile Char.isDigit := by
  rw [takeWhile_foldCase ignoresCase_isDigit, foldCase_of_all_isDigit List.all_takeWhile]

@[simp] theorem digitCount_foldCase (text : List Char) :
    digitCount (foldCase text) = digitCount text := by
  rw [digitCount, digits_foldCase, digitCount]

@[simp] theorem signLength_foldCase (text : List Char) :
    signLength (foldCase text) = signLength text := by
  rw [signLength, any_head_foldCase ignoresCase_isSign, signLength]

@[simp] theorem mantissaLength_foldCase (text : List Char) :
    mantissaLength (foldCase text) = mantissaLength text := by
  rw [mantissaLength_eq, mantissaLength_eq, digitCount_foldCase, drop_foldCase]
  cases text.drop (digitCount text) with
  | nil => rfl
  | cons c rest =>
    by_cases hpoint : c = '.'
    · subst hpoint
      show (if digitCount text + digitCount (foldCase rest) = 0 then 0
        else digitCount text + 1 + digitCount (foldCase rest)) = _
      rw [digitCount_foldCase]
      rfl
    · -- without a point the mantissa ends behind its digits
      have hlower : c.toLower ≠ '.' := by
        rwa [ne_eq, toLower_eq_iff (by decide)]
      simp [foldCase, hpoint, hlower]

@[simp] theorem exponentLength_foldCase (text : List Char) :
    exponentLength (foldCase text) = exponentLength text := by
  cases text with
  | nil => rfl
  | cons c rest =>
    show exponentLength (c.toLower :: foldCase rest) = _
    rw [exponentLength_cons, exponentLength_cons, beginsExponent_toLower]
    simp only [signLength_foldCase, drop_foldCase, digitCount_foldCase]

/-- A numeral takes as much of a text without capitals. -/
theorem scan_foldCase (text : List Char) : scan (foldCase text) = scan text := by
  simp only [scan_eq, signLength_foldCase, drop_foldCase, mantissaLength_foldCase,
    exponentLength_foldCase, any_head_foldCase ignoresCase_continuesWord]

theorem splitSign_foldCase (text : List Char) :
    splitSign (foldCase text) = ((splitSign text).1, foldCase (splitSign text).2) := by
  cases text with
  | nil => rfl
  | cons c rest =>
    have hminus : (c.toLower == '-') = (c == '-') := ignoresCase_beq (by decide) c
    show splitSign (c.toLower :: foldCase rest) = _
    rw [splitSign, splitSign, ignoresCase_isSign c, hminus]
    split <;> rfl

theorem readExponent?_foldCase (text : List Char) :
    readExponent? (foldCase text) = readExponent? text := by
  cases text with
  | nil => rfl
  | cons c rest =>
    show readExponent? (c.toLower :: foldCase rest) = _
    simp only [readExponent?, beginsExponent_toLower, splitSign_foldCase, isEmpty_foldCase,
      all_foldCase ignoresCase_isDigit]
    -- the value is read from digits only, which have no case; anything else is refused
    by_cases hdigits : (splitSign rest).2.all Char.isDigit = true
    · rw [foldCase_of_all_isDigit hdigits]
    · simp [hdigits]

/-- The fraction and what follows it, or what follows the digits if there is no point. -/
def splitFraction (text : List Char) : List Char × List Char :=
  match text with
  | '.' :: rest => (rest.takeWhile Char.isDigit, rest.dropWhile Char.isDigit)
  | rest => ([], rest)

theorem splitFraction_foldCase (text : List Char) :
    splitFraction (foldCase text) = ((splitFraction text).1, foldCase (splitFraction text).2) := by
  cases text with
  | nil => rfl
  | cons c rest =>
    by_cases hpoint : c = '.'
    · subst hpoint
      show ((foldCase rest).takeWhile Char.isDigit, (foldCase rest).dropWhile Char.isDigit) = _
      rw [digits_foldCase, dropWhile_foldCase ignoresCase_isDigit]
      rfl
    · have hlower : c.toLower ≠ '.' := by
        rwa [ne_eq, toLower_eq_iff (by decide)]
      simp [splitFraction, foldCase, hpoint, hlower]

/-- A decimal numeral is digits, a fraction and an exponent. -/
theorem readDecimal?_eq (f : Format) (negative : Bool) (text : List Char) :
    readDecimal? f negative text =
      let whole := text.takeWhile Char.isDigit
      let (fraction, tail) := splitFraction (text.dropWhile Char.isDigit)
      if whole.isEmpty && fraction.isEmpty then none
      else (readExponent? tail).map fun exponent =>
        ofDecimal f negative (digitsValue (whole ++ fraction)) (exponent - fraction.length) := rfl

theorem readDecimal?_foldCase (f : Format) (negative : Bool) (text : List Char) :
    readDecimal? f negative (foldCase text) = readDecimal? f negative text := by
  simp only [readDecimal?_eq, digits_foldCase, dropWhile_foldCase ignoresCase_isDigit,
    splitFraction_foldCase, readExponent?_foldCase]

/-- A numeral without capitals has the same value. -/
theorem read?_foldCase (f : Format) (text : List Char) :
    read? f (foldCase text) = read? f text := by
  have hword : ∀ body : List Char, (foldCase body).map Char.toLower = body.map Char.toLower :=
    foldCase_foldCase
  simp only [read?, splitSign_foldCase, readDecimal?_foldCase, hword]

end Number
end Compositing
