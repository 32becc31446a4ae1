import Compositing.Proofs.Recognition.Parsing
import Compositing.Script.Keyword

/-! # Keywords that are told apart

    A keyword is found at the front of every keyword that goes on where it
    ends, so its place among the alternatives of a grammar matters.  These are
    all such pairs; of any other two keywords neither is found where the other
    is written. -/

namespace Compositing
namespace Keyword

/-- The letters of a keyword. -/
def letters (k : Keyword) : { letters : List Char // k.text = String.ofList letters } := by
  cases k <;> exact ⟨_, rfl⟩

theorem toList_text (k : Keyword) : k.text.toList = k.letters.1 :=
  (congrArg String.toList k.letters.2).trans String.toList_ofList

/-- The keywords that go on where a keyword ends. -/
def longer : Keyword → List Keyword
  | pfR8G8B8 => [pfR8G8B8A8]
  | pfFloat16R => [pfFloat16Rgb, pfFloat16Rgba]
  | pfFloat16Rgb => [pfFloat16Rgba]
  | pfFloat32R => [pfFloat32Rgb, pfFloat32Rgba]
  | pfFloat32Rgb => [pfFloat32Rgba]
  | target => [targetWidth, targetHeight, targetOutput]
  | pass => [passOp]
  | stencil => [stencilValue]
  | material => [materialScheme]
  | colour => [colourValue]
  | depth => [depthValue, depthFailOp]
  | less => [lessEqual]
  | greater => [greaterEqual]
  | increment => [incrementWrap]
  | decrement => [decrementWrap]
  | on => [onlyInitial]
  | _ => []

/-- Is `k` another keyword than `other` and not found at the front of it? -/
def apart (k other : Keyword) : Bool := k != other && !k.longer.contains other

/-- What is to be known of the letters of a keyword. -/
def isApart (k : Keyword) : Bool :=
  Text.isLiteral k.letters.1 && (k == closeBrace || Text.isWord k.letters.1) &&
    Lexeme.clashes ['_'] k.letters.1 &&
    all.all fun other => !k.apart other || Lexeme.clashes k.letters.1 other.letters.1

theorem mem_all (k : Keyword) : k ∈ all := by
  cases k <;> decide

theorem isApart_eq_true (k : Keyword) : k.isApart = true := by
  have hall : all.all isApart = true := by decide +kernel
  exact List.all_eq_true.mp hall k (mem_all k)

theorem isLiteral_text (k : Keyword) : Text.isLiteral k.text.toList = true := by
  have h := isApart_eq_true k
  simp only [isApart, Bool.and_eq_true] at h
  rw [toList_text]
  exact h.1.1.1

/-- Every keyword but the brace is a word. -/
theorem isWord_text {k : Keyword} (hclose : k ≠ closeBrace) :
    Text.isWord k.text.toList = true := by
  have h := isApart_eq_true k
  simp only [isApart, Bool.and_eq_true, Bool.or_eq_true, beq_iff_eq] at h
  rw [toList_text]
  exact h.1.1.2.resolve_left hclose

/-- No keyword begins with an underscore. -/
theorem refuses_underscore (k : Keyword) :
    (Piece.word k.text.toList).refuses "_".toList = true := by
  have h := isApart_eq_true k
  simp only [isApart, Bool.and_eq_true] at h
  rw [toList_text]
  exact h.1.2

/-- A keyword is not found where another is written that is apart from it. -/
theorem refuses_word {k other : Keyword} (hapart : k.apart other = true) :
    (Piece.word other.text.toList).refuses k.text.toList = true := by
  have h := isApart_eq_true k
  simp only [isApart, Bool.and_eq_true] at h
  have hother := List.all_eq_true.mp h.2 other (mem_all other)
  rw [hapart] at hother
  rw [toList_text, toList_text]
  exact hother

/-- No other keyword is found at a closing brace. -/
theorem refuses_brace {k : Keyword} (hclose : k ≠ closeBrace) :
    (Piece.mark '\x7d').refuses k.text.toList = true := by
  have hword := isWord_text hclose
  cases htext : k.text.toList with
  | nil =>
    rw [htext] at hword
    cases hword
  | cons c rest =>
    rw [htext, Text.isWord, List.all_cons, Bool.and_eq_true, Bool.and_eq_true] at hword
    have hne : c ≠ '\x7d' := by
      rintro rfl
      exact absurd hword.2.1 (by decide)
    simpa [Piece.refuses] using hne

end Keyword
end Compositing
