import Compositing.Proofs.Number.Rounding
import Compositing.Proofs.Number.Texts

/-! # Integers as literals

    An integer may have zeros in front of its digits, and a point and zeros
    behind them.  Whatever its size, the number that such a literal is read to
    is cut off at the integer, or at the nearer bound if it lies outside. -/

namespace Compositing.Number
variable {literal rest : List Char} {v : Int} {most n : Nat}

/-- A sign or nothing, zeros, the digits of the integer, and nothing or a point and zeros. -/
inductive WritesInteger : (literal : List Char) → (v : Int) → Prop where
  | whole {sign : List Char} (hsign : IsOptionalSign sign) (zeros n : Nat) :
    WritesInteger (sign ++ (List.replicate zeros '0' ++ Nat.toDigits 10 n))
      (if sign = ['-'] then -n else n)
  | pointed {sign : List Char} (hsign : IsOptionalSign sign) (zeros n more : Nat) :
    WritesInteger
      (sign ++ (List.replicate zeros '0' ++ Nat.toDigits 10 n ++ '.' :: List.replicate more '0'))
      (if sign = ['-'] then -n else n)

/-! ## The digits -/

theorem isDigits_padded (zeros n : Nat) :
    IsDigits (List.replicate zeros '0' ++ Nat.toDigits 10 n) := by
  constructor
  · exact List.append_ne_nil_of_right_ne_nil _ Nat.toDigits_ne_nil
  · intro c hc
    rcases List.mem_append.mp hc with hzero | hdigit
    · rw [List.eq_of_mem_replicate hzero]
      rfl
    · exact Nat.isDigit_of_mem_toDigits (by decide) (by decide) hdigit

/-- Zeros in front of digits do not count, and each zero behind them counts tenfold. -/
theorem digitsValue_padded (zeros n more : Nat) :
    digitsValue (List.replicate zeros '0' ++ Nat.toDigits 10 n ++ List.replicate more '0') =
      n * 10 ^ more := by
  calc digitsValue (List.replicate zeros '0' ++ Nat.toDigits 10 n ++ List.replicate more '0')
      = Nat.ofDigitChars 10
          (List.replicate zeros '0' ++ Nat.toDigits 10 n ++ List.replicate more '0') 0 := rfl
    _ = n * 10 ^ more := by
      simp only [Nat.ofDigitChars_append, Nat.ofDigitChars_replicate_zero, Nat.mul_zero,
        Nat.ofDigitChars_ten_toDigits]
      exact Nat.mul_comm _ _

/-! ## The value -/

/-- An integer is a coefficient and a power of ten that cancels the zeros behind the point. -/
theorem WritesInteger.exists_read? (h : WritesInteger literal v) (f : Format) :
    ∃ (negative : Bool) (n zeros : Nat), v = (if negative then -(n : Int) else n) ∧
      read? f literal = some (ofDecimal f negative (n * 10 ^ zeros) (-(zeros : Int))) := by
  have hend : ∀ c ∈ ([] : List Char).head?, c.isDigit = false := nofun
  cases h with
  | @whole sign hsign zeros n =>
    have hdigits := isDigits_padded zeros n
    have hvalue := digitsValue_padded zeros n 0
    have hhead := (IsMantissa.whole hdigits).head []
    generalize List.replicate zeros '0' ++ Nat.toDigits 10 n = digits at hdigits hvalue hhead ⊢
    rw [List.replicate_zero, List.append_nil] at hvalue
    rw [List.append_nil] at hhead
    have hread : readDecimal? f (sign == ['-']) (digits ++ []) = _ :=
      readDecimal?_whole hdigits.2 hend nofun
    rw [List.append_nil, if_neg hdigits.1, hvalue] at hread
    refine ⟨sign == ['-'], n, 0, by simp, ?_⟩
    rw [read?_append hsign hhead]
    exact hread
  | @pointed sign hsign zeros n more =>
    have hdigits := isDigits_padded zeros n
    have hvalue := digitsValue_padded zeros n more
    have hzeros : ∀ c ∈ List.replicate more '0', c.isDigit = true := by
      intro c hc
      rw [List.eq_of_mem_replicate hc]
      rfl
    have hhead := (IsMantissa.pointed hdigits hzeros).head []
    generalize List.replicate zeros '0' ++ Nat.toDigits 10 n = digits at hdigits hvalue hhead ⊢
    rw [List.append_nil] at hhead
    have hread : readDecimal? f (sign == ['-'])
        (digits ++ '.' :: (List.replicate more '0' ++ [])) = _ :=
      readDecimal?_pointed hdigits.2 hzeros hend
    rw [List.append_nil, if_neg fun hnil => hdigits.1 hnil.1, hvalue,
      List.length_replicate] at hread
    refine ⟨sign == ['-'], n, more, by simp, ?_⟩
    rw [read?_append hsign hhead, hread]
    simp [readExponent?]

/-- The number that a literal of an integer is read to is cut off at the integer if it lies
    between 0 and the bound, and otherwise at the one of these that is nearer. -/
theorem WritesInteger.truncate (h : WritesInteger literal v) {x : Number}
    (hread : read? double literal = some x) (hmost : most < 2 ^ 53) :
    x.truncate most = min most v.toNat := by
  obtain ⟨negative, n, zeros, rfl, hvalue⟩ := h.exists_read? double
  rw [hvalue] at hread
  cases hread
  rw [truncate_ofDecimal negative n zeros hmost]
  cases negative with
  | false => simp
  | true => simp

end Compositing.Number
