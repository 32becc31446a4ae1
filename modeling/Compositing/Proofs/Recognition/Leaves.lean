import Compositing.Proofs.Number.Scan
import Compositing.Proofs.Text.Gap
import Compositing.Recognition

/-! # Labels, names and numbers as leaves

    What is written for a leaf is scanned whole, whatever follows it, as long
    as that cannot go on with it.  A name may go on: the run that takes it also
    takes the white space behind it, and trims it off again. -/

namespace Compositing

/-! ## Numbers -/

/-- A text that is scanned as a numeral whole. -/
structure Numeral where
  text : List Char
  scanned : Number.scan text = some text.length

namespace Numeral

/-- The value of a numeral. -/
def value (n : Numeral) : Number := (Number.read? Number.double n.text).getD .nan

theorem text_ne_nil (n : Numeral) : n.text ≠ [] := by
  intro hnil
  have hscanned := n.scanned
  rw [hnil] at hscanned
  cases hscanned

/-- A numeral begins with a sign, a digit or a point. -/
theorem head_text (n : Numeral) :
    ∃ c rest, n.text = c :: rest ∧ (Number.isSign c || c.isDigit || c == '.') = true := by
  obtain ⟨c, rest, htext⟩ := List.exists_cons_of_ne_nil n.text_ne_nil
  refine ⟨c, rest, htext, ?_⟩
  have hmantissa := (Number.parts_of_scan n.scanned).1
  rw [htext] at hmantissa
  by_cases hsign : Number.isSign c = true
  · simp [hsign]
  · by_cases hdigit : c.isDigit = true
    · simp [hdigit]
    · by_cases hpoint : c = '.'
      · simp [hpoint]
      · exfalso
        apply hmantissa
        simp [Number.signLength, hsign, Number.mantissaLength, Number.digitCount, hdigit, hpoint]

/-- The cases of the first character of a numeral. -/
theorem eq_or_of_head {c : Char} (h : (Number.isSign c || c.isDigit || c == '.') = true) :
    c = '+' ∨ c = '-' ∨ c.isDigit = true ∨ c = '.' := by
  simpa [Number.isSign, or_assoc] using h

/-- A numeral is scanned whole in front of what cannot go on with it. -/
theorem number_append (n : Numeral) {rest : List Char} (hrest : Number.EndsNumeral rest) :
    Scan.number (n.text ++ rest) = some (n.text.length, n.value) := by
  obtain ⟨value, hvalue⟩ :=
    Option.isSome_iff_exists.mp (Number.read?_isSome Number.double n.scanned)
  unfold Scan.number
  rw [Number.scan_append n.scanned hrest]
  simp only [List.take_left, hvalue, Numeral.value]
  rfl

end Numeral

/-! ## Labels -/

namespace Scan

/-- Does a bare label end at `c`? -/
def endsLabel (c : Char) : Bool := Text.isBlank c || c == '{' || c == '}' || c == '"'

/-- A label that may be written without quotes. -/
structure IsBareLabel (s : String) : Prop where
  nonempty : s.toList ≠ []
  inside : ∀ c ∈ s.toList, endsLabel c = false
  comment : ¬ ['/', '/'] <+: s.toList

/-- A label that may be written between quotes. -/
structure IsQuotedLabel (s : String) : Prop where
  nonempty : s.toList ≠ []
  quote : '"' ∉ s.toList
  line : '\n' ∉ s.toList

instance (s : String) : Decidable (IsQuotedLabel s) :=
  decidable_of_iff (s.toList ≠ [] ∧ '"' ∉ s.toList ∧ '\n' ∉ s.toList)
    ⟨fun ⟨nonempty, quote, line⟩ => ⟨nonempty, quote, line⟩,
      fun h => ⟨h.nonempty, h.quote, h.line⟩⟩

/-- What may be written without quotes may be written with them. -/
theorem isQuotedLabel_of_isBareLabel {s : String} (h : IsBareLabel s) : IsQuotedLabel s := by
  refine ⟨h.nonempty, fun hquote => ?_, fun hline => ?_⟩
  · exact absurd (h.inside '"' hquote) (by decide)
  · exact absurd (h.inside '\n' hline) (by decide)

/-- The text cannot go on with a bare label. -/
def EndsLabel (rest : List Char) : Prop := ∀ c ∈ rest.head?, endsLabel c = true

/-- What is taken while a property holds: a text that has it throughout, in front of one that
    does not begin with it. -/
theorem takeWhile_append_of_head {keep : Char → Bool} {text rest : List Char}
    (htext : ∀ c ∈ text, keep c = true) (hrest : ∀ c ∈ rest.head?, keep c = false) :
    (text ++ rest).takeWhile keep = text := by
  induction text with
  | nil =>
    cases rest with
    | nil => rfl
    | cons c rest =>
      have hc : keep c = false := hrest c (by simp)
      simp [hc]
  | cons c text ih =>
    rw [List.forall_mem_cons] at htext
    simp [htext.1, ih htext.2]

theorem label_bare {s : String} (h : IsBareLabel s) {rest : List Char} (hrest : EndsLabel rest) :
    label (s.toList ++ rest) = some (s.toList.length, s) := by
  have htaken : (s.toList ++ rest).takeWhile
      (fun c => !Text.isBlank c && c != '{' && c != '}' && c != '"') = s.toList := by
    have hkeep : ∀ c, (!Text.isBlank c && c != '{' && c != '}' && c != '"') = !endsLabel c := by
      intro c
      simp [endsLabel, bne]
    simp only [hkeep]
    apply takeWhile_append_of_head
    · intro c hc
      rw [h.inside c hc]
      rfl
    · intro c hc
      rw [hrest c hc]
      rfl
  have hempty : s.toList.isEmpty = false := by
    simpa using h.nonempty
  unfold label
  split
  · -- a bare label does not begin with a quote
    rename_i body heq
    obtain ⟨c, text, htext⟩ := List.exists_cons_of_ne_nil h.nonempty
    have hc := h.inside c (by simp [htext])
    rw [htext, List.cons_append, List.cons.injEq] at heq
    rw [heq.1] at hc
    exact absurd hc (by decide)
  · simp only [htaken, hempty, Bool.false_eq_true, if_false, String.ofList_toList]

theorem label_quoted {s : String} (h : IsQuotedLabel s) (rest : List Char) :
    label ('"' :: (s.toList ++ '"' :: rest)) = some (s.toList.length + 2, s) := by
  have htaken : (s.toList ++ '"' :: rest).takeWhile (fun c => c != '"' && c != '\n') =
      s.toList := by
    apply takeWhile_append_of_head
    · intro c hc
      have hquote : c ≠ '"' := fun heq => h.quote (heq ▸ hc)
      have hline : c ≠ '\n' := fun heq => h.line (heq ▸ hc)
      simp [hquote, hline]
    · simp
  have hempty : s.toList.isEmpty = false := by
    simpa using h.nonempty
  simp only [label, htaken, hempty, List.drop_left, List.head?_cons, Bool.not_false,
    Bool.true_and, beq_self_eq_true, if_true, String.ofList_toList]

/-! ## Names -/

/-- The characters that end the name of a compositor. -/
def nameEnds : List Char := [',', '\n', '\r', '\t', '\x7b', '\x7d', '"']

/-- A name that a compositor can be given. -/
structure IsName (s : String) : Prop where
  nonempty : s.toList ≠ []
  first : ∀ c ∈ s.toList.head?, Text.isBlank c = false
  last : ∀ c ∈ s.toList.getLast?, Text.isBlank c = false
  inside : ∀ c ∈ s.toList, c ∉ nameEnds
  comment : ¬ ['/', '/'] <:+: s.toList

/-- Does a comment begin in the text? -/
def hasComment : List Char → Bool
  | [] => false
  | c :: rest => (c == '/' && rest.head? == some '/') || hasComment rest

theorem hasComment_iff (text : List Char) : hasComment text = true ↔ ['/', '/'] <:+: text := by
  induction text with
  | nil => simp [hasComment]
  | cons c text ih =>
    rw [hasComment, Bool.or_eq_true, ih, List.infix_cons_iff, List.cons_prefix_cons]
    have hfirst : (c == '/' && text.head? == some '/') = true ↔ '/' = c ∧ ['/'] <+: text := by
      rw [Bool.and_eq_true, beq_iff_eq, beq_iff_eq, eq_comm]
      cases text with
      | nil => simp
      | cons d text =>
        rw [List.head?_cons, Option.some.injEq, List.cons_prefix_cons, eq_comm (a := d)]
        simp
    rw [hfirst]

/-- Can a compositor be given the name? -/
def isName (s : String) : Bool :=
  !s.toList.isEmpty && !s.toList.head?.any Text.isBlank && !s.toList.getLast?.any Text.isBlank &&
    s.toList.all (!nameEnds.contains ·) && !hasComment s.toList

theorem isName_iff (s : String) : isName s = true ↔ IsName s := by
  have h : isName s = true ↔ s.toList ≠ [] ∧ (∀ c ∈ s.toList.head?, Text.isBlank c = false) ∧
      (∀ c ∈ s.toList.getLast?, Text.isBlank c = false) ∧ (∀ c ∈ s.toList, c ∉ nameEnds) ∧
      ¬ ['/', '/'] <:+: s.toList := by
    simp [isName, Option.any_eq_false, and_assoc, ← hasComment_iff]
  rw [h]
  constructor
  · intro ⟨nonempty, first, last, inside, comment⟩
    exact ⟨nonempty, first, last, inside, comment⟩
  · intro h
    exact ⟨h.nonempty, h.first, h.last, h.inside, h.comment⟩

instance (s : String) : Decidable (IsName s) := decidable_of_iff _ (isName_iff s)

/-- The text does not make a comment of the slash that a name ends in. -/
def KeepsSlash (name rest : List Char) : Prop :=
  name.getLast? = some '/' → rest.head? ≠ some '/'

/-- A run goes through a text without stops and comments. -/
theorem runLength_go_append {chars text rest : List Char} (hinside : ∀ c ∈ text, c ∉ chars)
    (hcomment : ¬ ['/', '/'] <:+: text) (hslash : KeepsSlash text rest) (taken : Nat) :
    runLength.go chars true taken (text ++ rest) =
      runLength.go chars true (taken + text.length) rest := by
  induction text generalizing taken with
  | nil => rfl
  | cons c text ih =>
    rw [List.forall_mem_cons] at hinside
    have hchars : chars.contains c = false := by
      simpa using hinside.1
    have hnoComment : (c == '/' && (text ++ rest).head? == some '/') = false := by
      rw [Bool.and_eq_false_iff, beq_eq_false_iff_ne, beq_eq_false_iff_ne]
      by_cases hc : c = '/'
      · refine .inr ?_
        cases text with
        | nil => exact hslash (by simp [hc])
        | cons d text =>
          rw [List.cons_append, List.head?_cons]
          intro hd
          apply hcomment
          rw [hc, Option.some.inj hd]
          exact ⟨[], text, rfl⟩
      · exact .inl hc
    have hrest : KeepsSlash text rest := by
      intro hlast
      apply hslash
      cases text with
      | nil => cases hlast
      | cons d text => simpa [List.getLast?_cons_cons] using hlast
    have hcomment' : ¬ ['/', '/'] <:+: text :=
      fun h => hcomment (h.trans (List.suffix_cons c text).isInfix)
    rw [List.cons_append, runLength.go, hchars, hnoComment, Bool.or_false]
    simp only [Bool.false_eq_true, beq_iff_eq, if_false, ih hinside.2 hcomment' hrest,
      List.length_cons]
    congr 1
    omega

/-- A run goes into a gap as far as there is nothing but white space without stops. -/
theorem runLength_go_gap {chars gap : List Char} (hgap : Text.IsGap gap) {stop : Char}
    (hstop : stop ∈ chars) (rest : List Char) (taken : Nat) :
    ∃ blanks gap', gap = blanks ++ gap' ∧ (∀ c ∈ blanks, Text.isBlank c = true) ∧
      Text.IsGap gap' ∧
      runLength.go chars true taken (gap ++ stop :: rest) = taken + blanks.length := by
  induction hgap generalizing taken with
  | nil =>
    refine ⟨[], [], rfl, by simp, .nil, ?_⟩
    simp [runLength.go, hstop]
  | blank hc hrest ih =>
    rename_i c after
    by_cases hchars : c ∈ chars
    · refine ⟨[], c :: after, rfl, by simp, .blank hc hrest, ?_⟩
      simp [runLength.go, hchars]
    · obtain ⟨blanks, gap', hafter, hblanks, hgap', hgo⟩ := ih (taken + 1)
      have hslash : c ≠ '/' := by
        rintro rfl
        exact absurd hc (by decide)
      refine ⟨c :: blanks, gap', ?_, ?_, hgap', ?_⟩
      · rw [hafter, List.cons_append]
      · rw [List.forall_mem_cons]
        exact ⟨hc, hblanks⟩
      · simp [runLength.go, hchars, hslash, hgo]
        omega
  | comment hbody hrest _ =>
    refine ⟨[], _, rfl, by simp, .comment hbody hrest, ?_⟩
    simp [runLength.go]

/-- White space behind a text that does not end in it is trimmed off. -/
theorem trimEnd_append {text blanks : List Char}
    (hlast : ∀ c ∈ text.getLast?, Text.isBlank c = false)
    (hblanks : ∀ c ∈ blanks, Text.isBlank c = true) : Text.trimEnd (text ++ blanks) = text := by
  have hdrop : text.reverse.dropWhile Text.isBlank = text.reverse := by
    cases hreverse : text.reverse with
    | nil => rfl
    | cons c rest =>
      have hc : Text.isBlank c = false := by
        apply hlast
        rw [← List.head?_reverse, hreverse]
        rfl
      simp [hc]
  unfold Text.trimEnd
  rw [List.reverse_append, List.dropWhile_append_of_pos, hdrop, List.reverse_reverse]
  intro c hc
  exact hblanks c (List.mem_reverse.mp hc)

/-- The run that takes a name leaves a gap in front of a character that ends names. -/
theorem run_name {s : String} (h : IsName s) {gap rest : List Char} (hgap : Text.IsGap gap)
    {stop : Char} (hstop : stop ∈ nameEnds) (hslash : KeepsSlash s.toList (gap ++ stop :: rest)) :
    ∃ n gap', run nameEnds true (s.toList ++ (gap ++ stop :: rest)) = some (n, s) ∧ 0 < n ∧
      (s.toList ++ (gap ++ stop :: rest)).drop n = gap' ++ stop :: rest ∧ Text.IsGap gap' := by
  obtain ⟨blanks, gap', rfl, hblanks, hgap', hgo⟩ :=
    runLength_go_gap hgap hstop rest (0 + s.toList.length)
  have hlength : runLength nameEnds true (s.toList ++ (blanks ++ gap' ++ stop :: rest)) =
      s.toList.length + blanks.length := by
    rw [runLength, runLength_go_append h.inside h.comment hslash, hgo]
    omega
  have hsplit : s.toList ++ (blanks ++ gap' ++ stop :: rest) =
      (s.toList ++ blanks) ++ (gap' ++ stop :: rest) := by
    simp
  have hempty : s.toList.isEmpty = false := by
    simpa using h.nonempty
  have hpos := List.length_pos_iff.mpr h.nonempty
  refine ⟨s.toList.length + blanks.length, gap', ?_, by omega, ?_, hgap'⟩
  · unfold run
    simp only [hlength]
    rw [hsplit, ← List.length_append, List.take_left, trimEnd_append h.last hblanks]
    simp only [hempty, Bool.false_eq_true, if_false, String.ofList_toList]
  · rw [hsplit, ← List.length_append, List.drop_left]

end Scan
end Compositing
