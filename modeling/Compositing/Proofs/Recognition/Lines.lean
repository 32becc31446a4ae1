import Compositing.Proofs.Recognition.Parsing
import Compositing.Proofs.Text.Continuing

/-! # Leaves keep to a line

    A line end stands in no keyword, number or label and in no name.  So a
    leaf scans a text as it scans its first line, and what follows a line end
    makes no difference to it. -/

namespace Compositing

/-! ## Words -/

/-- What is taken while a property holds ends before a line end that has not got it. -/
theorem Text.takeWhile_continued {keep : Char → Bool} (hkeep : keep '\n' = false)
    (text more : List Char) : (text ++ '\n' :: more).takeWhile keep = text.takeWhile keep := by
  induction text with
  | nil => simp [hkeep]
  | cons c text ih =>
    rw [List.cons_append, List.takeWhile_cons, List.takeWhile_cons, ih]

namespace Lexeme
variable {caseSensitive : Bool} {word text rest : List Char}

/-- A word without line end is found in a continued text where it is found in the text. -/
theorem afterWord?_continued (hword : '\n' ∉ word) (text more : List Char) :
    afterWord? caseSensitive word (text ++ '\n' :: more) =
      (afterWord? caseSensitive word text).map (· ++ '\n' :: more) := by
  induction word generalizing text with
  | nil => rfl
  | cons w word ih =>
    rw [List.mem_cons, not_or] at hword
    cases text with
    | nil =>
      have hletter : Text.sameLetter caseSensitive w '\n' = false := by
        rw [← Bool.not_eq_true]
        intro hletter
        exact hword.1 (Text.eq_of_toLower_eq (Text.toLower_of_sameLetter hletter) rfl).symm
      simp [afterWord?, hletter]
    | cons c text =>
      rw [List.cons_append, afterWord?, afterWord?, ih hword.2]
      split <;> rfl

end Lexeme

/-! ## Numbers -/

namespace Number

theorem endsNumeral_lineEnd (more : List Char) : EndsNumeral ('\n' :: more) := by
  intro c hc
  cases hc
  rfl

/-- Behind a line end there is no exponent and nothing to go on with one. -/
theorem exponentLength_continued (text more : List Char) :
    exponentLength (text ++ '\n' :: more) = exponentLength text := by
  cases text with
  | nil => rfl
  | cons c rest =>
    have hdigits : digitCount ((rest ++ '\n' :: more).drop (signLength (rest ++ '\n' :: more))) =
        digitCount (rest.drop (signLength rest)) := by
      by_cases hne : rest = []
      · subst hne
        rfl
      · rw [signLength_append hne, List.drop_append_of_le_length (signLength_le hne),
          digitCount_append (endsNumeral_lineEnd more)]
    have hsign : signLength (rest ++ '\n' :: more) = signLength rest := by
      by_cases hne : rest = []
      · subst hne
        rfl
      · exact signLength_append hne _
    rw [List.cons_append, exponentLength_cons, exponentLength_cons, hdigits, hsign]

/-- A line end is in no numeral, and one may end in front of it. -/
theorem scan_continued (text more : List Char) : scan (text ++ '\n' :: more) = scan text := by
  by_cases hne : text = []
  · subst hne
    rfl
  have hends := endsNumeral_lineEnd more
  have hsign := signLength_append hne ('\n' :: more)
  have hmantissa : mantissaLength ((text ++ '\n' :: more).drop (signLength text)) =
      mantissaLength (text.drop (signLength text)) := by
    rw [List.drop_append_of_le_length (signLength_le hne), mantissaLength_append hends]
  have hle := numeral_le text
  generalize hlength : signLength text + mantissaLength (text.drop (signLength text)) = length
    at hle
  have hexponent : exponentLength ((text ++ '\n' :: more).drop length) =
      exponentLength (text.drop length) := by
    rw [List.drop_append_of_le_length (by omega), exponentLength_continued]
  have hhead : (((text ++ '\n' :: more).drop
      (length + exponentLength (text.drop length))).head?.any continuesWord) =
      ((text.drop (length + exponentLength (text.drop length))).head?.any continuesWord) := by
    rw [List.drop_append_of_le_length hle]
    cases text.drop (length + exponentLength (text.drop length)) with
    | nil => rfl
    | cons c rest => rfl
  rw [scan_eq, scan_eq, hsign, hmantissa, hlength]
  simp only [hexponent, hhead]

end Number

/-! ## Scanners -/

/-- A scanner of leaves that keeps to the first line of a text. -/
structure KeepsLine (scan : List Char → Option (Nat × Option Token.Kind)) : Prop where
  nil : scan [] = none
  within : ∀ {text n kind?}, scan text = some (n, kind?) → n ≤ text.length
  continued : ∀ text more, scan (text ++ '\n' :: more) = scan text

/-- The leaves whose scanner keeps to a line: literals of keywords and marks, numbers, labels,
    and runs that stop at a line end. -/
def Element.keepsLine : Element → Bool
  | .terminal text _ _ => Text.isLiteral text.toList
  | .number _ | .label _ => true
  | .run chars negated => negated && chars.toList.contains '\n'
  | _ => false

namespace Scan

/-- The characters of a bare label. -/
def isBare (c : Char) : Bool := !Text.isBlank c && c != '{' && c != '}' && c != '"'

/-- The characters between quotes. -/
def isInner (c : Char) : Bool := c != '"' && c != '\n'

theorem label_quote (body : List Char) :
    label ('"' :: body) =
      if !(body.takeWhile isInner).isEmpty &&
          (body.drop (body.takeWhile isInner).length).head? == some '"' then
        some ((body.takeWhile isInner).length + 2, String.ofList (body.takeWhile isInner))
      else none := rfl

theorem label_of_head {text : List Char} (h : text.head? ≠ some '"') :
    label text =
      if (text.takeWhile isBare).isEmpty then none
      else some ((text.takeWhile isBare).length, String.ofList (text.takeWhile isBare)) := by
  unfold label
  split
  · exact absurd rfl h
  · rfl

theorem label_continued (text more : List Char) : label (text ++ '\n' :: more) = label text := by
  by_cases hquote : text.head? = some '"'
  · obtain ⟨body, rfl⟩ := List.head?_eq_some_iff.mp hquote
    have hle : (body.takeWhile isInner).length ≤ body.length :=
      (List.takeWhile_sublist _).length_le
    -- a line end is no quote, so a label that is open at the end stays open
    have hclosed :
        (((body ++ '\n' :: more).drop (body.takeWhile isInner).length).head? == some '"') =
          ((body.drop (body.takeWhile isInner).length).head? == some '"') := by
      rw [List.drop_append_of_le_length hle]
      cases body.drop (body.takeWhile isInner).length <;> rfl
    rw [List.cons_append, label_quote, label_quote, Text.takeWhile_continued rfl, hclosed]
  · have hquote' : (text ++ '\n' :: more).head? ≠ some '"' := by
      cases text with
      | nil => simp
      | cons c body => exact hquote
    rw [label_of_head hquote, label_of_head hquote', Text.takeWhile_continued (by decide)]

theorem label_within {text : List Char} {n : Nat} {s : String} (h : label text = some (n, s)) :
    n ≤ text.length := by
  by_cases hquote : text.head? = some '"'
  · obtain ⟨body, rfl⟩ := List.head?_eq_some_iff.mp hquote
    rw [label_quote] at h
    split at h
    · rename_i hclosed
      cases h
      -- the closing quote is behind what was taken
      rw [Bool.and_eq_true, beq_iff_eq] at hclosed
      obtain ⟨rest, hrest⟩ := List.head?_eq_some_iff.mp hclosed.2
      have hlength := congrArg List.length hrest
      rw [List.length_drop, List.length_cons] at hlength
      rw [List.length_cons]
      omega
    · cases h
  · rw [label_of_head hquote] at h
    split at h
    · cases h
    · cases h
      exact (List.takeWhile_sublist _).length_le

theorem number_continued (text more : List Char) :
    number (text ++ '\n' :: more) = number text := by
  unfold number
  rw [Number.scan_continued]
  cases hscan : Number.scan text with
  | none => rfl
  | some length =>
    simp only [List.take_append_of_le_length (Number.scan_le hscan)]

theorem number_within {text : List Char} {n : Nat} {x : Number} (h : number text = some (n, x)) :
    n ≤ text.length := by
  unfold number at h
  cases hscan : Number.scan text with
  | none =>
    rw [hscan] at h
    cases h
  | some length =>
    rw [hscan] at h
    obtain ⟨value, _, heq⟩ := Option.map_eq_some_iff.mp h
    cases heq
    exact Number.scan_le hscan

section
variable {chars : List Char}

theorem runLength_le (negated : Bool) (text : List Char) :
    runLength chars negated text ≤ text.length := by
  have hgo : ∀ taken, runLength.go chars negated taken text ≤ taken + text.length := by
    induction text with
    | nil => exact fun taken => Nat.le_refl taken
    | cons c text ih =>
      intro taken
      have hrest := ih (taken + 1)
      rw [runLength.go, List.length_cons]
      split <;> omega
  have hle := hgo 0
  rwa [Nat.zero_add] at hle

/-- A run that stops at a line end does not see what follows it. -/
theorem runLength_continued (hstop : '\n' ∈ chars) (text more : List Char) :
    runLength chars true (text ++ '\n' :: more) = runLength chars true text := by
  have hgo : ∀ taken, runLength.go chars true taken (text ++ '\n' :: more) =
      runLength.go chars true taken text := by
    induction text with
    | nil =>
      intro taken
      simp [runLength.go, hstop]
    | cons c text ih =>
      intro taken
      -- nor is a line end the second slash of a comment
      have hslash : ((text ++ '\n' :: more).head? == some '/') = (text.head? == some '/') := by
        cases text <;> rfl
      rw [List.cons_append, runLength.go, runLength.go, hslash, ih]
  exact hgo 0

theorem run_continued (hstop : '\n' ∈ chars) (text more : List Char) :
    run chars true (text ++ '\n' :: more) = run chars true text := by
  unfold run
  rw [runLength_continued hstop]
  simp only [List.take_append_of_le_length (runLength_le true text)]

/-- No run begins with a character that ends it. -/
theorem run_stop {c : Char} (hstop : c ∈ chars) (rest : List Char) :
    run chars true (c :: rest) = none := by
  have hlength : runLength chars true (c :: rest) = 0 := by
    simp [runLength, runLength.go, hstop]
  simp [run, hlength, Text.trimEnd]

theorem run_within {negated : Bool} {text : List Char} {n : Nat} {s : String}
    (h : run chars negated text = some (n, s)) : n ≤ text.length := by
  unfold run at h
  simp only at h
  split at h
  · cases h
  · cases h
    exact runLength_le negated text

end
end Scan

/-- A literal of keywords and marks has no line end. -/
theorem Text.lineEnd_of_isLiteral {literal : List Char} (h : isLiteral literal = true) :
    literal ≠ [] ∧ '\n' ∉ literal := by
  rw [isLiteral, Bool.and_eq_true] at h
  refine ⟨?_, fun hmem => absurd (List.all_eq_true.mp h.2 '\n' hmem) (by decide)⟩
  rintro rfl
  cases h.1

theorem keepsLine_literal {caseSensitive : Bool} {literal : List Char} {kind? : Option Token.Kind}
    (h : Text.isLiteral literal = true) :
    KeepsLine fun rest => (Lexeme.matchLiteral caseSensitive literal rest).map (·, kind?) where
  nil := by
    obtain ⟨l, literal, rfl⟩ := List.exists_cons_of_ne_nil (Text.lineEnd_of_isLiteral h).1
    rw [matchLiteral_of_isLiteral h]
    rfl
  within := by
    intro text n kind? hscan
    rw [matchLiteral_of_isLiteral h] at hscan
    obtain ⟨length, hlength, heq⟩ := Option.map_eq_some_iff.mp hscan
    obtain ⟨rest, hafter, rfl⟩ := Option.map_eq_some_iff.mp hlength
    obtain ⟨spelling, rfl, hspells⟩ := Lexeme.spells_of_afterWord? hafter
    cases heq
    rw [List.length_append, hspells.length_eq]
    omega
  continued text more := by
    rw [matchLiteral_of_isLiteral h, matchLiteral_of_isLiteral h,
      Lexeme.afterWord?_continued (Text.lineEnd_of_isLiteral h).2, Option.map_map, Option.map_map,
      Option.map_map]
    rfl

/-- A scan of characters and a value keeps to a line with the value as a token. -/
theorem keepsLine_map {α : Type} {scan : List Char → Option (Nat × α)} {kind : α → Token.Kind}
    (hnil : scan [] = none) (hwithin : ∀ {text n a}, scan text = some (n, a) → n ≤ text.length)
    (hcontinued : ∀ text more, scan (text ++ '\n' :: more) = scan text) :
    KeepsLine fun rest => (scan rest).map fun (n, a) => (n, some (kind a)) where
  nil := by rw [hnil]; rfl
  within := by
    intro text n kind? hscan
    obtain ⟨⟨length, a⟩, hlength, heq⟩ := Option.map_eq_some_iff.mp hscan
    cases heq
    exact hwithin hlength
  continued text more := by rw [hcontinued]

/-- Every leaf of these has a scanner that keeps to a line. -/
theorem Element.exists_scanner {e : Element} (h : e.keepsLine = true) (caseSensitive : Bool) :
    ∃ scan, e.scanner? caseSensitive = some scan ∧ KeepsLine scan := by
  cases e with
  | terminal text emits token => exact ⟨_, rfl, keepsLine_literal h⟩
  | number name => exact ⟨_, rfl, keepsLine_map rfl Scan.number_within Scan.number_continued⟩
  | label name => exact ⟨_, rfl, keepsLine_map rfl Scan.label_within Scan.label_continued⟩
  | run chars negated =>
    rw [Element.keepsLine, Bool.and_eq_true, List.contains_iff_mem] at h
    obtain ⟨rfl, hstop⟩ := h
    exact ⟨_, rfl, keepsLine_map rfl Scan.run_within (Scan.run_continued hstop)⟩
  | _ => cases h

end Compositing
