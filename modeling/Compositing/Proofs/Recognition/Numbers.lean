import Compositing.Proofs.Number.Texts
import Compositing.Recognition

/-! # Numbers as leaves

    A number is matched where the longest numeral that is there does not run
    into a word or a second point.  What is scanned always has a value, so
    nothing is given up afterwards, and the value is a number. -/

namespace Compositing

namespace Number
variable {text : List Char} {n : Nat}

/-- What is scanned is the longest numeral. -/
theorem isLongestNumeral_of_scan (h : scan text = some n) :
    IsLongestNumeral text (text.take n) := by
  obtain ⟨numeral, rest, rfl, rfl, hlongest, -⟩ := scan_eq_some_iff_longest.mp h
  rwa [List.take_left]

/-- What is scanned has a value that is a number. -/
theorem exists_value_of_scan (h : scan text = some n) :
    ∃ x, read? double (text.take n) = some x ∧ x ≠ .nan :=
  (isLongestNumeral_of_scan h).isNumeral.exists_value double

end Number

/-- A number is scanned where a numeral is, with the value of the numeral. -/
theorem Scan.number_eq_some_iff {text : List Char} {n : Nat} {x : Number} :
    Scan.number text = some (n, x) ↔
      Number.scan text = some n ∧ Number.read? Number.double (text.take n) = some x := by
  unfold Scan.number
  cases Number.scan text with
  | none => simp
  | some length =>
    simp only [Option.map_eq_some_iff, Prod.mk.injEq, Option.some.injEq]
    constructor
    · rintro ⟨value, hvalue, rfl, rfl⟩
      exact ⟨rfl, hvalue⟩
    · rintro ⟨rfl, hvalue⟩
      exact ⟨x, hvalue, rfl, rfl⟩

namespace Recognition
variable {caseSensitive emitting : Bool} {call : Bool → Nat → Progress → Attempt} {name : String}
  {p q : Progress}

/-- Trying a number: behind white space and comments it is matched if it is scanned. -/
theorem element_number :
    element caseSensitive call emitting (.number name) p =
      match Scan.number p.position.skipTrivia.rest with
      | none =>
        .failed (if emitting then max p.furthest p.position.skipTrivia.offset else p.furthest)
      | some (n, x) =>
        .matched ⟨p.position.skipTrivia.advance n,
          if emitting then
            ⟨.number x, p.position.skipTrivia.offset, p.position.skipTrivia.line⟩ :: p.tokens
          else p.tokens, p.furthest⟩ := by
  rw [element, leaf]
  cases Scan.number p.position.skipTrivia.rest <;> rfl

/-- A number is matched exactly where a numeral is scanned. -/
theorem exists_matched_number_iff :
    (∃ q, element caseSensitive call emitting (.number name) p = .matched q) ↔
      (Number.scan p.position.skipTrivia.rest).isSome := by
  rw [element_number]
  constructor
  · rintro ⟨q, hq⟩
    cases hnumber : Scan.number p.position.skipTrivia.rest with
    | none =>
      rw [hnumber] at hq
      cases hq
    | some found => rw [(Scan.number_eq_some_iff.mp hnumber).1]; rfl
  · intro h
    obtain ⟨n, hscan⟩ := Option.isSome_iff_exists.mp h
    obtain ⟨x, hx, -⟩ := Number.exists_value_of_scan hscan
    rw [Scan.number_eq_some_iff.mpr ⟨hscan, hx⟩]
    exact ⟨_, rfl⟩

/-- A match of a number passes the numeral and emits its value. -/
theorem matched_number
    (h : element caseSensitive call emitting (.number name) p = .matched q) :
    ∃ n x, Number.scan p.position.skipTrivia.rest = some n ∧
      Number.read? Number.double (p.position.skipTrivia.rest.take n) = some x ∧ x ≠ .nan ∧
      q.position = p.position.skipTrivia.advance n ∧
      q.tokens =
        if emitting then
          ⟨.number x, p.position.skipTrivia.offset, p.position.skipTrivia.line⟩ :: p.tokens
        else p.tokens := by
  rw [element_number] at h
  cases hnumber : Scan.number p.position.skipTrivia.rest with
  | none =>
    rw [hnumber] at h
    cases h
  | some found =>
    obtain ⟨n, x⟩ := found
    rw [hnumber] at h
    cases h
    obtain ⟨hscan, hx⟩ := Scan.number_eq_some_iff.mp hnumber
    obtain ⟨y, hy, hne⟩ := Number.exists_value_of_scan hscan
    rw [hx] at hy
    cases hy
    exact ⟨n, x, hscan, hx, hne, rfl, rfl⟩

/-- A scan takes the longest numeral that a text begins with, in characters and in bytes, unless
    a letter, digit, underscore or point follows it.  What it takes is written as a number and
    has a value as one, texts that are written so being those that have a value.  So where a
    number is called for, it is matched exactly if it is scanned, and the token it emits is the
    value, which is a number. -/
theorem numbers_are_longest_numerals :
    (∀ text n, Number.scan text = some n ↔
      ∃ numeral rest, text = numeral ++ rest ∧ numeral.length = n ∧ Text.byteLength numeral = n ∧
        Number.IsLongestNumeral text numeral ∧ Number.EndsNumeral rest) ∧
    (∀ f text, (Number.read? f text).isSome ↔ Number.IsFloat text) ∧
    (∀ text n, Number.scan text = some n → Number.IsFloat (text.take n) ∧
      ∃ x, Number.read? Number.double (text.take n) = some x ∧ x ≠ .nan) ∧
    (∀ caseSensitive call emitting name p,
      ((∃ q, element caseSensitive call emitting (.number name) p = .matched q) ↔
        (Number.scan p.position.skipTrivia.rest).isSome) ∧
      ∀ q, element caseSensitive call emitting (.number name) p = .matched q →
        ∃ n x, Number.scan p.position.skipTrivia.rest = some n ∧
          Number.read? Number.double (p.position.skipTrivia.rest.take n) = some x ∧ x ≠ .nan ∧
          q.position = p.position.skipTrivia.advance n ∧
          q.tokens =
            if emitting then
              ⟨.number x, p.position.skipTrivia.offset, p.position.skipTrivia.line⟩ :: p.tokens
            else p.tokens) := by
  refine ⟨?_, fun f text => Number.read?_isSome_iff, ?_, ?_⟩
  · intro text n
    rw [Number.scan_eq_some_iff_longest]
    constructor
    · rintro ⟨numeral, rest, htext, hlength, hlongest, hends⟩
      exact ⟨numeral, rest, htext, hlength, by rw [hlongest.isNumeral.byteLength_eq, hlength],
        hlongest, hends⟩
    · rintro ⟨numeral, rest, htext, hlength, -, hlongest, hends⟩
      exact ⟨numeral, rest, htext, hlength, hlongest, hends⟩
  · intro text n hscan
    exact ⟨(Number.isLongestNumeral_of_scan hscan).isNumeral.isFloat,
      Number.exists_value_of_scan hscan⟩
  · intro caseSensitive call emitting name p
    exact ⟨exists_matched_number_iff, fun q => matched_number⟩

/-- A point and an exponent without digits are given up, and then something may go on. -/
example : (["1.", "-.5", ".5e-3x", "2e+", "1.2.3", ".", "+1.e5 f"].map
    fun text => Number.scan text.toList) =
      [some 2, some 3, none, none, none, none, some 5] := by decide

end Recognition
end Compositing
