import Compositing.Proofs.Recognition.Regions
import Mathlib.Data.List.Induction
import Mathlib.Order.Bounds.Basic

/-! # Where skipping ends

    A text is a row of pieces: characters of code, strings and comments.  Only
    braces and line ends of code count, so what a failed statement takes with
    it is said of pieces.  Skipping ends at the first place where it may: after
    a line end outside all braces whose next line opens no block, before a `}`
    that closes nothing, or at the end of the text.

    It follows that no brace is parted from its partner: what is skipped closes
    nothing that was open before, and leaves nothing open unless the text ends. -/

namespace Compositing.Resync

/-! ## Pieces -/

/-- A character of code, or a whole string or comment. -/
inductive Piece where
  | code (c : Char)
  | quoted (text : List Char)
  | comment (text : List Char)
  deriving DecidableEq

/-- The characters of a piece. -/
def Piece.text : Piece → List Char
  | .code c => [c]
  | .quoted text => text
  | .comment text => text

/-- The text that pieces make up. -/
def textOf (pieces : List Piece) : List Char := pieces.flatMap Piece.text

/-- The text is at its end or at a line end, where strings and comments end. -/
def AtLineEnd (text : List Char) : Prop := ∀ c ∈ text.head?, c = '\n'

/-- The characters stand inside a string: there is no quote and no line end among them. -/
def IsInside (body : List Char) : Prop := ∀ c ∈ body, c ≠ '"' ∧ c ≠ '\n'

/-- The pieces of a text that begins in code.  A quote opens a string, which reaches through the
    next quote if that is on the same line and to the end of the line if not; two slashes open a
    comment up to the end of the line; any other character is code. -/
inductive Cut : List Char → List Piece → Prop where
  | nil : Cut [] []
  | code {c rest pieces} (hquote : c ≠ '"') (hslashes : ¬ ['/', '/'] <+: c :: rest)
    (hrest : Cut rest pieces) : Cut (c :: rest) (.code c :: pieces)
  | closed {body rest pieces} (hbody : IsInside body) (hrest : Cut rest pieces) :
    Cut ('"' :: (body ++ '"' :: rest)) (.quoted ('"' :: (body ++ ['"'])) :: pieces)
  | unclosed {body rest pieces} (hbody : IsInside body) (hline : AtLineEnd rest)
    (hrest : Cut rest pieces) : Cut ('"' :: (body ++ rest)) (.quoted ('"' :: body) :: pieces)
  | comment {body rest pieces} (hbody : '\n' ∉ body) (hline : AtLineEnd rest)
    (hrest : Cut rest pieces) :
    Cut ('/' :: '/' :: (body ++ rest)) (.comment ('/' :: '/' :: body) :: pieces)

theorem textOf_cons (piece : Piece) (pieces : List Piece) :
    textOf (piece :: pieces) = piece.text ++ textOf pieces := rfl

theorem textOf_append (before after : List Piece) :
    textOf (before ++ after) = textOf before ++ textOf after := List.flatMap_append

/-- The pieces of a text make it up. -/
theorem Cut.textOf_eq {text : List Char} {pieces : List Piece} (h : Cut text pieces) :
    textOf pieces = text := by
  induction h with
  | nil => rfl
  | code _ _ _ ih | unclosed _ _ _ ih | comment _ _ _ ih => simp [textOf_cons, Piece.text, ih]
  | closed _ _ ih => simp [textOf_cons, Piece.text, ih]

/-- The characters in front of the first that is not kept. -/
theorem exists_kept (keep : Char → Bool) (text : List Char) :
    ∃ body rest, text = body ++ rest ∧ (∀ c ∈ body, keep c = true) ∧
      ∀ c ∈ rest.head?, keep c = false := by
  refine ⟨text.takeWhile keep, text.dropWhile keep, ?_, ?_, ?_⟩
  · exact List.takeWhile_append_dropWhile.symm
  · exact List.all_eq_true.mp List.all_takeWhile
  · intro c hc
    have hfirst := List.head?_dropWhile_not keep text
    rw [hc] at hfirst
    exact hfirst

/-- Every text has pieces. -/
theorem exists_cut (text : List Char) : ∃ pieces, Cut text pieces := by
  match text with
  | [] => exact ⟨[], .nil⟩
  | c :: rest =>
    by_cases hquote : c = '"'
    · obtain ⟨body, after, rfl, hbody, hafter⟩ :=
        exists_kept (fun c => c != '"' && c != '\n') rest
      have hinside : IsInside body := by simpa [IsInside] using hbody
      by_cases hclosed : after.head? = some '"'
      · obtain ⟨after', rfl⟩ := List.head?_eq_some_iff.mp hclosed
        obtain ⟨pieces, hpieces⟩ := exists_cut after'
        rw [hquote]
        exact ⟨_, .closed hinside hpieces⟩
      · -- the string stopped at a line end or at the end of the text
        have hline : AtLineEnd after := by
          intro d hd
          have hstops := hafter d hd
          have hnot : d ≠ '"' := by
            intro h
            exact hclosed (by rw [← h]; exact hd)
          simpa [hnot] using hstops
        obtain ⟨pieces, hpieces⟩ := exists_cut after
        rw [hquote]
        exact ⟨_, .unclosed hinside hline hpieces⟩
    · by_cases hslashes : ['/', '/'] <+: c :: rest
      · obtain ⟨inner, hinner⟩ := hslashes
        obtain ⟨body, after, hsplit, hbody, hafter⟩ := exists_kept (· != '\n') inner
        have hinside : '\n' ∉ body := fun hmem => by simpa using hbody '\n' hmem
        have hline : AtLineEnd after := by
          intro d hd
          simpa using hafter d hd
        have hshorter : after.length < (c :: rest).length := by
          rw [← hinner, hsplit]
          simp
          omega
        obtain ⟨pieces, hpieces⟩ := exists_cut after
        rw [← hinner, hsplit]
        show ∃ pieces, Cut ('/' :: '/' :: (body ++ after)) pieces
        exact ⟨_, .comment hinside hline hpieces⟩
      · obtain ⟨pieces, hpieces⟩ := exists_cut rest
        exact ⟨_, .code hquote hslashes hpieces⟩
termination_by text.length
decreasing_by
  all_goals simp_all
  all_goals omega

/-! ## Places where skipping may end -/

/-- With `depth` braces open in front of them, none is open behind the pieces. -/
def Balanced (depth : Nat) (pieces : List Piece) : Prop :=
  depth + pieces.count (.code '{') = pieces.count (.code '}')

/-- Skipping may end behind `n` characters of the pieces, with `depth` braces open in front of
    them: behind a line end outside all braces if no block is opened next, before a `}` outside
    all braces, or behind all of them. -/
inductive MayEnd (depth : Nat) (pieces : List Piece) : (n : Nat) → Prop where
  | line {before after} (hpieces : pieces = before ++ .code '\n' :: after)
    (hdepth : Balanced depth before)
    (hnext : (Text.trimStart (textOf after)).head? ≠ some '{') :
    MayEnd depth pieces ((textOf before).length + 1)
  | brace {before after} (hpieces : pieces = before ++ .code '}' :: after)
    (hdepth : Balanced depth before) : MayEnd depth pieces (textOf before).length
  | finish : MayEnd depth pieces (textOf pieces).length

section
variable {depth : Nat} {pieces : List Piece}

theorem isLeast_nil : IsLeast {n | MayEnd depth [] n} 0 :=
  ⟨.finish, fun _ _ => Nat.zero_le _⟩

/-- Before a `}` outside all braces nothing is skipped. -/
theorem isLeast_brace : IsLeast {n | MayEnd 0 (.code '}' :: pieces) n} 0 := by
  have hend : MayEnd 0 (.code '}' :: pieces) (textOf []).length := .brace rfl rfl
  exact ⟨hend, fun _ _ => Nat.zero_le _⟩

/-- A line end outside all braces ends the skipping if no block is opened next. -/
theorem isLeast_line (hnext : (Text.trimStart (textOf pieces)).head? ≠ some '{') :
    IsLeast {n | MayEnd 0 (.code '\n' :: pieces) n} 1 := by
  constructor
  · have hend : MayEnd 0 (.code '\n' :: pieces) ((textOf []).length + 1) := .line rfl rfl hnext
    exact hend
  · intro n hn
    have hend : MayEnd 0 (.code '\n' :: pieces) n := hn
    cases hend with
    | line => omega
    | @brace before after hpieces _ =>
      -- the line end is no brace, so it is passed
      cases before with
      | nil => cases hpieces
      | cons first before =>
        obtain ⟨rfl, _⟩ := List.cons.inj hpieces
        simp [textOf_cons, Piece.text]
    | finish => simp [textOf_cons, Piece.text]

/-- Elsewhere a piece is skipped.  `depth'` braces are open behind it. -/
theorem isLeast_cons {depth' n : Nat} {piece : Piece}
    (hdepth : ∀ before, Balanced depth (piece :: before) ↔ Balanced depth' before)
    (hbrace : piece = .code '}' → depth ≠ 0)
    (hline : piece = .code '\n' → depth = 0 →
      (Text.trimStart (textOf pieces)).head? = some '{')
    (h : IsLeast {n | MayEnd depth' pieces n} n) :
    IsLeast {n | MayEnd depth (piece :: pieces) n} (piece.text.length + n) := by
  have hlength : ∀ before : List Piece,
      (textOf (piece :: before)).length = piece.text.length + (textOf before).length := by
    intro before
    rw [textOf_cons, List.length_append]
  constructor
  · show MayEnd depth (piece :: pieces) (piece.text.length + n)
    have hend : MayEnd depth' pieces n := h.1
    cases hend with
    | @line before after hpieces hbalanced hnext =>
      rw [← Nat.add_assoc, ← hlength]
      exact .line (by rw [hpieces, List.cons_append]) ((hdepth before).mpr hbalanced) hnext
    | @brace before after hpieces hbalanced =>
      rw [← hlength]
      exact .brace (by rw [hpieces, List.cons_append]) ((hdepth before).mpr hbalanced)
    | finish =>
      rw [← hlength]
      exact .finish
  · intro m hm
    have hend : MayEnd depth (piece :: pieces) m := hm
    -- an end behind the piece is an end behind the others
    suffices ∃ k, m = piece.text.length + k ∧ MayEnd depth' pieces k by
      obtain ⟨k, rfl, hk⟩ := this
      exact Nat.add_le_add_left (h.2 hk) _
    cases hend with
    | @line before after hpieces hbalanced hnext =>
      cases before with
      | nil =>
        obtain ⟨hpiece, rfl⟩ := List.cons.inj hpieces
        have hzero : depth = 0 := by simpa [Balanced] using hbalanced
        exact absurd (hline hpiece hzero) hnext
      | cons first before =>
        rw [List.cons_append] at hpieces
        obtain ⟨rfl, htail⟩ := List.cons.inj hpieces
        refine ⟨(textOf before).length + 1, by rw [hlength, Nat.add_assoc], ?_⟩
        exact .line htail ((hdepth before).mp hbalanced) hnext
    | @brace before after hpieces hbalanced =>
      cases before with
      | nil =>
        obtain ⟨hpiece, rfl⟩ := List.cons.inj hpieces
        have hzero : depth = 0 := by simpa [Balanced] using hbalanced
        exact absurd hzero (hbrace hpiece)
      | cons first before =>
        rw [List.cons_append] at hpieces
        obtain ⟨rfl, htail⟩ := List.cons.inj hpieces
        exact ⟨_, hlength before, .brace htail ((hdepth before).mp hbalanced)⟩
    | finish => exact ⟨_, hlength pieces, .finish⟩

end

/-! ## Skipping piece by piece -/

section
variable {opening : Bool} {depth taken : Nat} {rest : List Char}

theorem lengthFrom_quote : lengthFrom (.code opening) depth taken ('"' :: rest) =
    lengthFrom .quoted depth (taken + 1) rest := by
  simp [lengthFrom]

theorem lengthFrom_slashes : lengthFrom (.code opening) depth taken ('/' :: '/' :: rest) =
    lengthFrom .comment depth (taken + 2) rest := by
  simp [lengthFrom]

theorem lengthFrom_open : lengthFrom (.code opening) depth taken ('{' :: rest) =
    lengthFrom (.code false) (depth + 1) (taken + 1) rest := by
  simp [lengthFrom]

theorem lengthFrom_close : lengthFrom (.code opening) depth taken ('}' :: rest) =
    if depth = 0 then (if taken = 0 then 1 else taken)
    else lengthFrom (.code false) (depth - 1) (taken + 1) rest := by
  simp [lengthFrom]

theorem lengthFrom_line : lengthFrom (.code opening) depth taken ('\n' :: rest) =
    if depth = 0 && !(opening || opensBlock rest) then taken + 1
    else lengthFrom (.code (depth = 0)) depth (taken + 1) rest := by
  simp [lengthFrom, Mode.afterLineEnd]

theorem lengthFrom_other {c : Char} (hquote : c ≠ '"') (hopen : c ≠ '{') (hclose : c ≠ '}')
    (hline : c ≠ '\n') (hslashes : ¬ ['/', '/'] <+: c :: rest) :
    lengthFrom (.code opening) depth taken (c :: rest) =
      lengthFrom (.code opening) depth (taken + 1) rest := by
  have hcomment : ¬ (c = '/' ∧ rest.head? = some '/') := by
    intro h
    obtain ⟨after, hafter⟩ := List.head?_eq_some_iff.mp h.2
    apply hslashes
    rw [h.1, hafter]
    exact ⟨after, rfl⟩
  simp [lengthFrom, hline, hcomment]

theorem lengthFrom_inside {body : List Char} (hbody : IsInside body) :
    lengthFrom .quoted depth taken (body ++ rest) =
      lengthFrom .quoted depth (taken + body.length) rest := by
  induction body generalizing taken with
  | nil => rfl
  | cons c body ih =>
    obtain ⟨⟨hquote, hline⟩, hbody⟩ := List.forall_mem_cons.mp hbody
    have hstep : lengthFrom .quoted depth taken (c :: (body ++ rest)) =
        lengthFrom .quoted depth (taken + 1) (body ++ rest) := by
      simp [lengthFrom, hquote, hline]
    rw [List.cons_append, hstep, ih hbody, List.length_cons]
    congr 1
    omega

theorem lengthFrom_comment {body : List Char} (hbody : '\n' ∉ body) :
    lengthFrom .comment depth taken (body ++ rest) =
      lengthFrom .comment depth (taken + body.length) rest := by
  induction body generalizing taken with
  | nil => rfl
  | cons c body ih =>
    obtain ⟨hline, hbody⟩ := not_or.mp (mt List.mem_cons.mpr hbody)
    have hstep : lengthFrom .comment depth taken (c :: (body ++ rest)) =
        lengthFrom .comment depth (taken + 1) (body ++ rest) := by
      simp [lengthFrom, Ne.symm hline]
    rw [List.cons_append, hstep, ih hbody, List.length_cons]
    congr 1
    omega

/-- A string or comment that reaches a line end leaves the line end to the code. -/
theorem lengthFrom_atLineEnd {mode : Mode} (hmode : mode.afterLineEnd = .code false)
    (hline : AtLineEnd rest) :
    lengthFrom mode depth taken rest = lengthFrom (.code false) depth taken rest := by
  cases rest with
  | nil => rfl
  | cons c rest =>
    obtain rfl : c = '\n' := hline c rfl
    simp only [lengthFrom, if_true, hmode]
    rfl

end

/-- White space in front of a brace goes on to it. -/
theorem opensBlock_of_cons {c : Char} {rest : List Char} (h : opensBlock (c :: rest) = true)
    (hopen : c ≠ '{') : opensBlock rest = true := by
  by_cases hblank : Text.isBlank c = true
  · simpa [opensBlock, Text.trimStart, hblank] using h
  · simp [opensBlock, Text.trimStart, hblank, hopen] at h

theorem opensBlock_iff (text : List Char) :
    opensBlock text = true ↔ (Text.trimStart text).head? = some '{' := by
  simp [opensBlock]

/-- Of the places where skipping may end, the one behind `total` characters is the least; `taken` of
    them were passed before the pieces. -/
def EndsLeast (depth taken : Nat) (pieces : List Piece) (total : Nat) : Prop :=
  ∃ n, total = taken + n ∧ IsLeast {n | MayEnd depth pieces n} n

section
variable {depth taken total : Nat} {pieces : List Piece}

/-- A piece that skipping does not end at is passed. -/
theorem EndsLeast.cons {depth' : Nat} {piece : Piece}
    (h : EndsLeast depth' (taken + piece.text.length) pieces total)
    (hdepth : ∀ before, Balanced depth (piece :: before) ↔ Balanced depth' before)
    (hbrace : piece = .code '}' → depth ≠ 0)
    (hline : piece = .code '\n' → depth = 0 →
      (Text.trimStart (textOf pieces)).head? = some '{') :
    EndsLeast depth taken (piece :: pieces) total := by
  obtain ⟨n, htotal, hleast⟩ := h
  refine ⟨piece.text.length + n, ?_, isLeast_cons hdepth hbrace hline hleast⟩
  omega

theorem EndsLeast.openBrace (h : EndsLeast (depth + 1) (taken + 1) pieces total) :
    EndsLeast depth taken (.code '{' :: pieces) total := by
  apply EndsLeast.cons h
  · intro before
    simp [Balanced]
    omega
  · nofun
  · nofun

theorem EndsLeast.closeBrace (h : EndsLeast depth (taken + 1) pieces total) :
    EndsLeast (depth + 1) taken (.code '}' :: pieces) total := by
  apply EndsLeast.cons h
  · intro before
    simp [Balanced]
    omega
  · intro _
    omega
  · nofun

theorem EndsLeast.lineEnd (h : EndsLeast depth (taken + 1) pieces total)
    (hopens : depth = 0 → (Text.trimStart (textOf pieces)).head? = some '{') :
    EndsLeast depth taken (.code '\n' :: pieces) total := by
  apply EndsLeast.cons h
  · intro before
    simp [Balanced]
  · nofun
  · intro _
    exact hopens

/-- Any other piece is passed. -/
theorem EndsLeast.other {piece : Piece}
    (h : EndsLeast depth (taken + piece.text.length) pieces total) (hopen : piece ≠ .code '{')
    (hclose : piece ≠ .code '}') (hline : piece ≠ .code '\n') :
    EndsLeast depth taken (piece :: pieces) total := by
  apply EndsLeast.cons h
  · intro before
    simp only [Balanced, List.count_cons_of_ne hopen, List.count_cons_of_ne hclose]
  · intro hpiece
    exact absurd hpiece hclose
  · intro hpiece
    exact absurd hpiece hline

end

/-- What is skipped from a line end of code on.  It is known whether a brace comes next where it
    matters, which is outside all braces. -/
theorem lengthFrom_line_cases (opening : Bool) (depth taken : Nat) (rest : List Char)
    (hopening : opening = true → opensBlock rest = true) :
    (depth = 0 ∧ opensBlock rest = false ∧
      lengthFrom (.code opening) depth taken ('\n' :: rest) = taken + 1) ∨
    ((depth = 0 → opensBlock rest = true) ∧
      lengthFrom (.code opening) depth taken ('\n' :: rest) =
        lengthFrom (.code (depth = 0)) depth (taken + 1) rest) := by
  rw [lengthFrom_line]
  by_cases hnext : opensBlock rest = true
  · exact .inr ⟨fun _ => hnext, by simp [hnext]⟩
  · have hopens : opening = false := by
      by_contra h
      exact hnext (hopening (by simpa using h))
    by_cases hdepth : depth = 0
    · exact .inl ⟨hdepth, by simpa using hnext, by simp [hdepth, hopens, hnext]⟩
    · exact .inr ⟨fun h => absurd h hdepth, by simp [hdepth]⟩

/-- From any place on the least end is what is skipped, but in front of a `}` where nothing was
    skipped before. -/
theorem lengthFrom_endsLeast {text : List Char} {pieces : List Piece} (h : Cut text pieces)
    (opening : Bool) (depth taken : Nat) (hopening : opening = true → opensBlock text = true)
    (hfirst : taken = 0 → depth = 0 → text.head? ≠ some '}') :
    EndsLeast depth taken pieces (lengthFrom (.code opening) depth taken text) := by
  -- the induction is on the pieces; behind the first of them something was skipped
  induction h generalizing opening depth taken with
  | nil => exact ⟨0, rfl, isLeast_nil⟩
  | @code c rest pieces hquote hslashes hrest ih =>
    by_cases hopen : c = '{'
    · rw [hopen, lengthFrom_open]
      exact (ih false (depth + 1) (taken + 1) nofun (by omega)).openBrace
    by_cases hclose : c = '}'
    · rw [hclose, lengthFrom_close]
      cases depth with
      | zero =>
        have htaken : taken ≠ 0 := by
          intro hzero
          exact hfirst hzero rfl (by rw [hclose]; rfl)
        rw [if_pos rfl, if_neg htaken]
        exact ⟨0, rfl, isLeast_brace⟩
      | succ depth =>
        rw [if_neg (Nat.succ_ne_zero depth)]
        exact (ih false depth (taken + 1) nofun (by omega)).closeBrace
    by_cases hline : c = '\n'
    · have htext := hrest.textOf_eq
      rw [hline]
      rcases lengthFrom_line_cases opening depth taken rest
          (fun h => opensBlock_of_cons (hopening h) hopen) with
        ⟨hdepth, hnext, hlength⟩ | ⟨hopens, hlength⟩
      · have hnext' : (Text.trimStart (textOf pieces)).head? ≠ some '{' := by
          rw [htext, Ne, ← opensBlock_iff, hnext]
          decide
        rw [hlength, hdepth]
        exact ⟨1, rfl, isLeast_line hnext'⟩
      · rw [hlength]
        apply EndsLeast.lineEnd
        · apply ih
          · intro hdepth
            exact hopens (by simpa using hdepth)
          · omega
        · intro hdepth
          rw [htext]
          exact (opensBlock_iff rest).mp (hopens hdepth)
    · rw [lengthFrom_other hquote hopen hclose hline hslashes]
      apply EndsLeast.other
      · apply ih
        · intro h
          exact opensBlock_of_cons (hopening h) hopen
        · simp [Piece.text]
      · simpa using hopen
      · simpa using hclose
      · simpa using hline
  | @closed body rest pieces hbody hrest ih =>
    have hlength : lengthFrom (.code opening) depth taken ('"' :: (body ++ '"' :: rest)) =
        lengthFrom (.code false) depth (taken + (Piece.quoted ('"' :: (body ++ ['"']))).text.length)
          rest := by
      rw [lengthFrom_quote, lengthFrom_inside hbody]
      simp [lengthFrom, Piece.text]
      congr 1
      omega
    rw [hlength]
    exact (ih false depth _ nofun (by simp [Piece.text])).other nofun nofun nofun
  | @unclosed body rest pieces hbody hline hrest ih =>
    have hlength : lengthFrom (.code opening) depth taken ('"' :: (body ++ rest)) =
        lengthFrom (.code false) depth (taken + (Piece.quoted ('"' :: body)).text.length) rest := by
      rw [lengthFrom_quote, lengthFrom_inside hbody, lengthFrom_atLineEnd rfl hline]
      simp [Piece.text]
      congr 1
      omega
    rw [hlength]
    exact (ih false depth _ nofun (by simp [Piece.text])).other nofun nofun nofun
  | @comment body rest pieces hbody hline hrest ih =>
    have hlength : lengthFrom (.code opening) depth taken ('/' :: '/' :: (body ++ rest)) =
        lengthFrom (.code false) depth
          (taken + (Piece.comment ('/' :: '/' :: body)).text.length) rest := by
      rw [lengthFrom_slashes, lengthFrom_comment hbody, lengthFrom_atLineEnd rfl hline]
      simp [Piece.text]
      congr 1
      omega
    rw [hlength]
    exact (ih false depth _ nofun (by simp [Piece.text])).other nofun nofun nofun

/-! ## What is skipped -/

section
variable {pieces : List Piece} {n : Nat}

/-- Skipping may end only between two pieces, and but for the end of the text only where no brace
    is open. -/
theorem MayEnd.exists_split (h : MayEnd 0 pieces n) :
    ∃ before after, pieces = before ++ after ∧ n = (textOf before).length ∧
      (after ≠ [] → before.count (.code '{') = before.count (.code '}')) := by
  cases h with
  | @line before after hpieces hdepth _ =>
    refine ⟨before ++ [.code '\n'], after, by simp [hpieces], ?_, ?_⟩
    · rw [textOf_append, List.length_append]
      rfl
    · intro _
      simpa [Balanced, List.count_append] using hdepth
  | @brace before after hpieces hdepth =>
    refine ⟨before, .code '}' :: after, hpieces, rfl, ?_⟩
    intro _
    simpa [Balanced] using hdepth
  | finish => exact ⟨pieces, [], by simp, rfl, fun h => absurd rfl h⟩

/-- In front of the least end no brace is closed that was not opened before. -/
theorem count_le_of_isLeast {before after : List Piece} (hpieces : pieces = before ++ after)
    (h : (textOf before).length ∈ lowerBounds {n | MayEnd 0 pieces n}) (front : List Piece)
    (hfront : front <+: before) :
    front.count (.code '}') ≤ front.count (.code '{') := by
  induction front using List.reverseRecOn with
  | nil => exact Nat.le_refl _
  | append_singleton front piece ih =>
    have hcount := ih ((List.prefix_append front [piece]).trans hfront)
    simp only [List.count_append]
    by_cases hpiece : piece = .code '}'
    · -- were it outside all braces, skipping would end before it
      obtain ⟨rest, rfl⟩ := hfront
      have hopen : front.count (.code '}') ≠ front.count (.code '{') := by
        intro heven
        have hbalanced : Balanced 0 front := by
          rw [Balanced, heven, Nat.zero_add]
        have hsplit : pieces = front ++ .code '}' :: (rest ++ after) := by
          rw [hpieces, hpiece]
          simp
        have hle : (textOf (front ++ [piece] ++ rest)).length ≤ (textOf front).length :=
          h (.brace hsplit hbalanced)
        simp only [hpiece, textOf_append, textOf_cons, Piece.text, List.length_append,
          List.length_cons] at hle
        omega
      rw [hpiece]
      simp
      omega
    · rw [List.count_singleton]
      simp [hpiece]
      omega

end

/-- A text that begins with `}` begins with it in code. -/
theorem Cut.of_brace {text : List Char} {pieces : List Piece} (h : Cut text pieces)
    (hbrace : text.head? = some '}') : ∃ after, pieces = .code '}' :: after := by
  cases h with
  | nil => cases hbrace
  | code _ _ _ =>
    obtain rfl := Option.some.inj hbrace
    exact ⟨_, rfl⟩
  | closed _ _ | unclosed _ _ _ | comment _ _ _ => cases hbrace

theorem length_of_brace {text : List Char} (h : text.head? = some '}') : length text = 1 := by
  obtain ⟨rest, rfl⟩ := List.head?_eq_some_iff.mp h
  rw [length, lengthFrom_close]
  rfl

/-- What is skipped of a text, however it is cut into pieces: it ends between two pieces, so in no
    string or comment, and between two characters, as lengths count characters.  If the text
    begins with `}` that is skipped alone; otherwise skipping ends at the least place where it
    may, closes no brace that it did not open, and leaves none open but at the end of the text. -/
theorem length_isLeast {text : List Char} (hne : text ≠ []) :
    (∃ pieces, Cut text pieces) ∧
    ∀ pieces, Cut text pieces → ∃ before after, pieces = before ++ after ∧
      text = textOf before ++ textOf after ∧ length text = (textOf before).length ∧
      1 ≤ length text ∧ length text ≤ text.length ∧
      (text.head? = some '}' → length text = 1) ∧
      (text.head? ≠ some '}' → IsLeast {n | MayEnd 0 pieces n} (length text) ∧
        (∀ front, front <+: before → front.count (.code '}') ≤ front.count (.code '{')) ∧
        (after ≠ [] → before.count (.code '{') = before.count (.code '}'))) := by
  refine ⟨exists_cut text, ?_⟩
  intro pieces hcut
  have htext := hcut.textOf_eq
  have hpos := length_pos hne
  by_cases hbrace : text.head? = some '}'
  · have hlength := length_of_brace hbrace
    obtain ⟨after, rfl⟩ := hcut.of_brace hbrace
    refine ⟨[.code '}'], after, rfl, ?_, hlength, hpos, length_le text, fun _ => hlength, ?_⟩
    · rw [← htext, ← textOf_append]
      rfl
    · intro h
      exact absurd hbrace h
  · obtain ⟨n, hlength, hleast⟩ :=
      lengthFrom_endsLeast hcut false 0 0 nofun (fun _ _ => hbrace)
    have hn : length text = n := by
      rw [length, hlength, Nat.zero_add]
    obtain ⟨before, after, hpieces, hsplit, hopen⟩ := MayEnd.exists_split hleast.1
    refine ⟨before, after, hpieces, ?_, hn.trans hsplit, hpos, length_le text,
      fun h => absurd h hbrace, ?_⟩
    · rw [← htext, hpieces, textOf_append]
    · intro _
      rw [hn]
      refine ⟨hleast, ?_, hopen⟩
      apply count_le_of_isLeast hpieces
      rw [← hsplit]
      exact hleast.2

/-- A block on the line after its opener, with braces in a string and in a comment. -/
theorem length_isLeast_block :
    let text := "bogus\n  \x7b \"\x7d\" // \x7d\n\x7d\nset".toList
    text ≠ [] ∧ length text = 21 ∧ text.head? ≠ some '}' ∧
      ∃ pieces, Cut text pieces ∧ IsLeast {n | MayEnd 0 pieces n} 21 := by
  intro text
  have hne : text ≠ [] := by decide
  have hlength : length text = 21 := by decide +kernel
  have hbrace : text.head? ≠ some '}' := by decide
  obtain ⟨⟨pieces, hpieces⟩, hall⟩ := length_isLeast hne
  obtain ⟨_, _, _, _, _, _, _, _, hleast⟩ := hall pieces hpieces
  rw [hlength] at hleast
  exact ⟨hne, hlength, hbrace, pieces, hpieces, (hleast hbrace).1⟩

end Compositing.Resync
