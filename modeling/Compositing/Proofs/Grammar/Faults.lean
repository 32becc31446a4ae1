import Compositing.Proofs.Grammar.Deriving
import Mathlib.Data.List.Forall2

/-! # What is wrong with a rule

    Symbols are cut into rules at the headers, and no header is left within a
    body.  A body that is one is read, and written as it was.  Any other body
    has one fault: it is empty, or some symbol of it is the first that no body
    has there, or it ends too early.  Rules are read in order up to the first
    with a fault, which is the one reported. -/

namespace Compositing.Grammar

/-! ## The first impossible symbol -/

namespace Draft.Reading
variable {r r' : Reading} {placed : List PlacedSymbol}

/-- Where symbols stand makes no difference to what is read of them. -/
theorem run_eq_ok : r.run placed = .ok r' ↔ r.reads? (placed.map (·.symbol)) = some r' := by
  induction placed generalizing r with
  | nil =>
    show Except.ok r = Except.ok r' ↔ some r = some r'
    rw [Except.ok.injEq, Option.some.injEq]
  | cons s rest ih =>
    rw [List.map_cons, reads?_cons]
    unfold run
    cases hstep : r.step? s.symbol with
    | none => simp
    | some r₁ => exact ih

/-- Reading stops at a symbol that cannot be read behind those before it. -/
theorem run_eq_error {s : PlacedSymbol} :
    r.run placed = .error s ↔ ∃ front rest r', placed = front ++ s :: rest ∧
      r.reads? (front.map (·.symbol)) = some r' ∧ r'.step? s.symbol = none := by
  constructor
  · intro h
    induction placed generalizing r with
    | nil => cases h
    | cons t placed ih =>
      unfold run at h
      cases hstep : r.step? t.symbol with
      | none =>
        rw [hstep] at h
        cases h
        exact ⟨[], placed, r, rfl, rfl, hstep⟩
      | some r₁ =>
        rw [hstep] at h
        obtain ⟨front, rest, r₂, hplaced, hfront, hnone⟩ := ih h
        refine ⟨t :: front, rest, r₂, by rw [hplaced, List.cons_append], ?_, hnone⟩
        rw [List.map_cons, reads?_cons, hstep]
        exact hfront
  · intro h
    obtain ⟨front, rest, r₁, hplaced, hfront, hnone⟩ := h
    rw [hplaced]
    clear hplaced
    induction front generalizing r with
    | nil =>
      cases hfront
      simp only [List.nil_append, run, hnone]
    | cons t front ih =>
      rw [List.map_cons, reads?_cons] at hfront
      obtain ⟨r₂, hstep, hrest⟩ := Option.bind_eq_some_iff.mp hfront
      simp only [List.cons_append, run, hstep]
      exact ih hrest

end Draft.Reading

/-- The symbols before `s` begin some body, but none goes on with `s`. -/
def IsFirstImpossible (placed : List PlacedSymbol) (s : PlacedSymbol) : Prop :=
  ∃ front rest, placed = front ++ s :: rest ∧ Begins (front.map (·.symbol)) ∧
    ¬ Begins (front.map (·.symbol) ++ [s.symbol])

open Draft in
/-- Reading a body stops at the first symbol that is impossible. -/
theorem run_start_eq_error {placed : List PlacedSymbol} {s : PlacedSymbol} :
    Reading.start.run placed = .error s ↔ IsFirstImpossible placed s := by
  -- a symbol behind what is read is possible exactly if it is read too
  have hpossible : ∀ {front r}, Reading.start.reads? front = some r →
      (Begins (front ++ [s.symbol]) ↔ r.step? s.symbol ≠ none) := by
    intro front r hreads
    rw [begins_iff, Reading.reads?_append, hreads, Option.bind_some, Reading.reads?_cons,
      Option.ne_none_iff_exists']
    cases r.step? s.symbol with
    | none => simp
    | some r' => simp [Reading.reads?]
  rw [Reading.run_eq_error]
  constructor
  · intro h
    obtain ⟨front, rest, r, hplaced, hreads, hnone⟩ := h
    refine ⟨front, rest, hplaced, (begins_iff _).mpr ⟨r, hreads⟩, ?_⟩
    intro hbegins
    exact (hpossible hreads).mp hbegins hnone
  · intro h
    obtain ⟨front, rest, hplaced, hbegins, himpossible⟩ := h
    obtain ⟨r, hreads⟩ := (begins_iff _).mp hbegins
    refine ⟨front, rest, r, hplaced, hreads, ?_⟩
    apply Classical.byContradiction
    intro hstep
    exact himpossible ((hpossible hreads).mpr hstep)

/-- No body begins with symbols of which one is impossible. -/
theorem IsFirstImpossible.not_begins {placed : List PlacedSymbol} {s : PlacedSymbol}
    (h : IsFirstImpossible placed s) : ¬ Begins (placed.map (·.symbol)) := by
  intro hbegins
  obtain ⟨front, rest, hplaced, _, himpossible⟩ := h
  obtain ⟨more, hbody⟩ := hbegins
  apply himpossible
  refine ⟨rest.map (·.symbol) ++ more, ?_⟩
  rw [hplaced, List.map_append, List.map_cons] at hbody
  rw [List.append_assoc, List.singleton_append, ← List.cons_append, ← List.append_assoc]
  exact hbody

/-- A body begins as it does. -/
theorem IsBody.begins {body : List Symbol} (h : IsBody body) : Begins body := by
  refine ⟨[], ?_⟩
  rwa [List.append_nil]

/-- A body has symbols. -/
theorem IsBody.ne_nil {body : List Symbol} (h : IsBody body) : body ≠ [] := by
  intro hnil
  obtain ⟨r, alternatives, hreads, hfinish, _⟩ := (isBody_iff body).mp h
  rw [hnil] at hreads
  cases hreads
  cases hfinish

/-! ## One rule -/

namespace RuleText

/-- The symbols of the body of a rule, wherever they stand. -/
def bodySymbols (r : RuleText) : List Symbol := r.body.map (·.symbol)

/-- What is wrong with a rule. -/
inductive IsFault (r : RuleText) : RuleError → Prop where
  | emptyBody (hbody : r.body = []) : IsFault r ⟨r.name, r.line, .emptyBody⟩
  -- reported where the symbol stands
  | unexpected {s} (hs : IsFirstImpossible r.body s) :
    IsFault r ⟨r.name, s.line, .unexpected s.symbol⟩
  -- reported where the name of the rule stands
  | unfinished (hbody : r.body ≠ []) (hbegins : Begins r.bodySymbols)
    (hends : ¬ IsBody r.bodySymbols) : IsFault r ⟨r.name, r.line, .unfinished⟩

/-- A rule is read exactly if its body is one.  It keeps its name and its line, and is written
    with the symbols of the body again.  Otherwise its fault is reported. -/
structure IsReadExactly (r : RuleText) : Prop where
  accepts : (∃ d, r.read = .ok d) ↔ IsBody r.bodySymbols
  writes : ∀ d, r.read = .ok d → d.name = r.name ∧ d.line = r.line ∧
    Draft.alternativesSymbols d.alternatives = r.bodySymbols
  rejects : ∀ e, r.read = .error e ↔ r.IsFault e

/-- What is read of a rule is a body. -/
theorem read_ok {r : RuleText} {d : RuleDraft} (h : r.read = .ok d) :
    IsBody r.bodySymbols ∧ d.name = r.name ∧ d.line = r.line ∧
      Draft.alternativesSymbols d.alternatives = r.bodySymbols := by
  have hsymbols := symbols_read h
  unfold read at h
  split at h
  · cases h
  · split at h
    · cases h
    · rename_i reading hrun
      split at h
      · rename_i alternatives hfinish
        cases h
        have hwritten : Draft.alternativesSymbols alternatives = r.bodySymbols :=
          (List.cons.inj (List.cons.inj hsymbols).2).2
        have hreads := Draft.Reading.run_eq_ok.mp hrun
        exact ⟨(isBody_iff _).mpr ⟨reading, alternatives, hreads, hfinish, hwritten⟩, rfl, rfl,
          hwritten⟩
      · cases h

/-- What is reported of a rule is its fault. -/
theorem read_error {r : RuleText} {e : RuleError} (h : r.read = .error e) : r.IsFault e := by
  unfold read at h
  split at h
  · rename_i hempty
    cases h
    exact .emptyBody (List.isEmpty_iff.mp hempty)
  · rename_i hnonempty
    split at h
    · rename_i s hrun
      cases h
      exact .unexpected (run_start_eq_error.mp hrun)
    · rename_i reading hrun
      split at h
      · cases h
      · rename_i hfinish
        cases h
        have hreads := Draft.Reading.run_eq_ok.mp hrun
        refine .unfinished ?_ ((begins_iff _).mpr ⟨reading, hreads⟩) ?_
        · intro hnil
          exact hnonempty (List.isEmpty_iff.mpr hnil)
        · -- reading is deterministic, and this reading may not end here
          intro hbody
          obtain ⟨reading', alternatives, hreads', hfinish', _⟩ := (isBody_iff _).mp hbody
          cases hreads.symm.trans hreads'
          rw [hfinish] at hfinish'
          cases hfinish'

/-- A rule is read exactly. -/
theorem isReadExactly (r : RuleText) : r.IsReadExactly where
  accepts := by
    constructor
    · intro h
      obtain ⟨d, hread⟩ := h
      exact (read_ok hread).1
    · intro hbody
      cases hread : r.read with
      | ok d => exact ⟨d, rfl⟩
      | error e =>
        -- a body has no fault
        exfalso
        cases read_error hread with
        | emptyBody hempty =>
          apply hbody.ne_nil
          rw [bodySymbols, hempty]
          rfl
        | unexpected hs => exact hs.not_begins hbody.begins
        | unfinished _ _ hends => exact hends hbody
  writes _ hread := (read_ok hread).2
  rejects e := by
    constructor
    · exact read_error
    · intro hfault
      cases hfault with
      | emptyBody hempty =>
        unfold read
        rw [hempty]
        rfl
      | unexpected hs =>
        have hrun := run_start_eq_error.mpr hs
        obtain ⟨front, rest, hplaced, _⟩ := hs
        have hnonempty : r.body.isEmpty = false := by
          rw [hplaced]
          cases front <;> rfl
        unfold read
        simp only [hnonempty, hrun]
        rfl
      | unfinished hnonempty hbegins hends =>
        cases hread : r.read with
        | ok d => exact absurd (read_ok hread).1 hends
        | error e =>
          cases read_error hread with
          | emptyBody hempty => exact absurd hempty hnonempty
          | unexpected hs => exact absurd hbegins hs.not_begins
          | unfinished _ _ _ => rfl

end RuleText

/-! ## The rules of a text -/

/-- Some symbol of a row is a name that is followed by a definition. -/
def HasHeader (placed : List PlacedSymbol) : Prop :=
  ∃ name, [Symbol.rule name, Symbol.define] <:+: placed.map (·.symbol)

/-- The symbols are those of the rules, one after the other: each with its header, which makes
    the name and the line, and with all that stands before the next header. -/
inductive IsCut : List PlacedSymbol → List RuleText → Prop where
  | nil : IsCut [] []
  | rule {name head define body rest rules} (hhead : head.symbol = .rule name)
    (hdefine : define.symbol = .define) (hbody : ¬ HasHeader body) (hrest : IsCut rest rules) :
    IsCut (head :: define :: (body ++ rest)) (⟨name, head.line, body⟩ :: rules)

/-- What is cut does not begin with a definition. -/
theorem IsCut.head_ne_define {placed : List PlacedSymbol} {rules : List RuleText}
    (h : IsCut placed rules) : placed.head?.map PlacedSymbol.symbol ≠ some .define := by
  cases h with
  | nil => exact nofun
  | rule hhead _ _ _ =>
    rw [List.head?_cons, Option.map_some, hhead]
    exact nofun

/-- A header in a row begins it, or is in what follows its first symbol. -/
theorem hasHeader_cons {s : PlacedSymbol} {rest : List PlacedSymbol} :
    HasHeader (s :: rest) ↔
      (∃ name, s.symbol = .rule name ∧ rest.head?.map PlacedSymbol.symbol = some .define) ∨
        HasHeader rest := by
  unfold HasHeader
  constructor
  · intro h
    obtain ⟨name, hinfix⟩ := h
    rw [List.map_cons, List.infix_cons_iff, List.cons_prefix_cons] at hinfix
    rcases hinfix with ⟨hs, hrest⟩ | hrest
    · refine .inl ⟨name, hs.symm, ?_⟩
      cases rest with
      | nil => exact absurd hrest (by simp)
      | cons t rest =>
        rw [List.map_cons, List.cons_prefix_cons] at hrest
        rw [List.head?_cons, Option.map_some, hrest.1]
    · exact .inr ⟨name, hrest⟩
  · intro h
    rcases h with ⟨name, hs, hdefine⟩ | ⟨name, hrest⟩
    · refine ⟨name, ?_⟩
      cases rest with
      | nil => cases hdefine
      | cons t rest =>
        have ht : t.symbol = .define := Option.some.inj hdefine
        rw [List.map_cons, List.map_cons, hs, ht]
        exact ⟨[], rest.map (·.symbol), rfl⟩
    · refine ⟨name, ?_⟩
      rw [List.map_cons]
      exact List.infix_cons hrest

/-- Cutting leaves some symbols without a header in front, and cuts the rest. -/
theorem cut_isCut (placed : List PlacedSymbol) :
    ∃ rest, placed = (RuleText.cut placed).1 ++ rest ∧ ¬ HasHeader (RuleText.cut placed).1 ∧
      IsCut rest (RuleText.cut placed).2 := by
  induction placed with
  | nil =>
    refine ⟨[], rfl, ?_, .nil⟩
    intro hheader
    obtain ⟨name, hinfix⟩ := hheader
    exact absurd hinfix (by simp [RuleText.cut])
  | cons s placed ih =>
    obtain ⟨rest, hplaced, hfront, hcut⟩ := ih
    simp only [RuleText.cut]
    generalize RuleText.cut placed = result at hplaced hfront hcut ⊢
    obtain ⟨leading, rules⟩ := result
    rw [hplaced]
    split
    · -- a header: what was in front of the rules is its definition and its body
      rename_i name hs hdefine
      cases leading with
      | nil => exact absurd hdefine hcut.head_ne_define
      | cons define body =>
        have hbody : ¬ HasHeader body := fun hheader => hfront (hasHeader_cons.mpr (.inr hheader))
        refine ⟨s :: define :: (body ++ rest), rfl, ?_, ?_⟩
        · intro hheader
          obtain ⟨_, hinfix⟩ := hheader
          exact absurd hinfix (by simp)
        · exact .rule hs (Option.some.inj hdefine) hbody hcut
    · rename_i hnone
      refine ⟨rest, rfl, ?_, hcut⟩
      intro hheader
      rcases hasHeader_cons.mp hheader with ⟨name, hs, hdefine⟩ | hheader
      · apply hnone name hs
        cases leading with
        | nil => cases hdefine
        | cons t leading => exact hdefine
      · exact hfront hheader

/-- Symbols without a header belong to what is in front of the rules. -/
theorem cut_append {front rest : List PlacedSymbol} {rules : List RuleText}
    (hfront : ¬ HasHeader front) (hrest : rest.head?.map PlacedSymbol.symbol ≠ some .define)
    (hcut : RuleText.cut rest = ([], rules)) : RuleText.cut (front ++ rest) = (front, rules) := by
  induction front with
  | nil => exact hcut
  | cons s front ih =>
    have hlater : ¬ HasHeader front := fun hheader => hfront (hasHeader_cons.mpr (.inr hheader))
    simp only [List.cons_append, RuleText.cut, ih hlater]
    split
    · rename_i name hs hdefine
      exfalso
      cases front with
      | nil => exact hrest hdefine
      | cons t front => exact hfront (hasHeader_cons.mpr (.inl ⟨name, hs, hdefine⟩))
    · rfl

/-- There is one way to cut symbols into rules. -/
theorem IsCut.cut_eq {placed : List PlacedSymbol} {rules : List RuleText}
    (h : IsCut placed rules) : RuleText.cut placed = ([], rules) := by
  induction h with
  | nil => rfl
  | rule hhead hdefine hbody hrest ih =>
    have hcut := cut_append hbody hrest.head_ne_define ih
    rw [RuleText.cut, RuleText.cut_define hdefine, hcut, hhead, List.head?_cons, Option.map_some,
      hdefine]
    rfl

/-- Symbols can be cut into rules if there are none or they begin with a header. -/
theorem exists_isCut_iff (placed : List PlacedSymbol) :
    (∃ rules, IsCut placed rules) ↔
      placed = [] ∨ ∃ name, [Symbol.rule name, Symbol.define] <+: placed.map (·.symbol) := by
  constructor
  · intro h
    obtain ⟨rules, hcut⟩ := h
    cases hcut with
    | nil => exact .inl rfl
    | @rule name head define body rest rules hhead hdefine _ _ =>
      refine .inr ⟨name, (body ++ rest).map (·.symbol), ?_⟩
      rw [List.map_cons, List.map_cons, hhead, hdefine]
      rfl
  · intro h
    obtain ⟨rest, hplaced, hfront, hcut⟩ := cut_isCut placed
    have hleading : (RuleText.cut placed).1 = [] := by
      rcases h with hnil | ⟨name, behind, hheader⟩
      · rw [hnil]
        rfl
      · obtain ⟨s, placed, rfl, hs, hrest⟩ := List.map_eq_cons_iff.mp hheader.symm
        obtain ⟨t, placed, rfl, ht, _⟩ := List.map_eq_cons_iff.mp hrest
        rw [RuleText.cut, hs, List.head?_cons, Option.map_some, ht]
    rw [hleading, List.nil_append] at hplaced
    rw [← hplaced] at hcut
    exact ⟨_, hcut⟩

/-! ## Lists that are taken up to the first refusal -/

section
variable {α β ε : Type} {f : α → Except ε β} {xs : List α}

/-- All items are granted, each with its own result. -/
theorem mapM_eq_ok {ys : List β} :
    xs.mapM f = .ok ys ↔ List.Forall₂ (fun x y => f x = .ok y) xs ys := by
  induction xs generalizing ys with
  | nil =>
    constructor
    · intro h
      cases h
      exact .nil
    · intro h
      cases h
      rfl
  | cons x xs ih =>
    rw [mapM_cons_ok]
    constructor
    · intro h
      obtain ⟨y, rest, hx, hrest, hys⟩ := h
      rw [hys]
      exact .cons hx (ih.mp hrest)
    · intro h
      cases h with
      | cons hx hrest => exact ⟨_, _, hx, ih.mpr hrest, rfl⟩

/-- The first item that is refused is the one reported. -/
theorem mapM_eq_error {e : ε} :
    xs.mapM f = .error e ↔ ∃ front x rest, xs = front ++ x :: rest ∧
      (∀ x' ∈ front, ∃ y, f x' = .ok y) ∧ f x = .error e := by
  induction xs with
  | nil =>
    constructor
    · nofun
    · intro h
      obtain ⟨front, x, rest, hnil, _⟩ := h
      cases front <;> cases hnil
  | cons x xs ih =>
    rw [List.mapM_cons]
    cases hx : f x with
    | error e' =>
      constructor
      · intro h
        cases h
        exact ⟨[], x, xs, rfl, nofun, hx⟩
      · intro h
        obtain ⟨front, x', rest, hsplit, hfront, hx'⟩ := h
        cases front with
        | nil =>
          cases hsplit
          rw [hx] at hx'
          cases hx'
          rfl
        | cons first front =>
          cases hsplit
          obtain ⟨y, hy⟩ := hfront x List.mem_cons_self
          rw [hx] at hy
          cases hy
    | ok y =>
      have hrest : (do let ys ← xs.mapM f; pure (y :: ys)) = .error e ↔ xs.mapM f = .error e := by
        cases xs.mapM f <;> simp [bind, Except.bind, pure, Except.pure]
      show (do let ys ← xs.mapM f; pure (y :: ys)) = .error e ↔ _
      rw [hrest, ih]
      constructor
      · intro h
        obtain ⟨front, x', rest, hsplit, hfront, hx'⟩ := h
        refine ⟨x :: front, x', rest, by rw [hsplit, List.cons_append], ?_, hx'⟩
        intro x'' hx''
        rcases List.mem_cons.mp hx'' with hfirst | hlater
        · rw [hfirst]
          exact ⟨y, hx⟩
        · exact hfront x'' hlater
      · intro h
        obtain ⟨front, x', rest, hsplit, hfront, hx'⟩ := h
        cases front with
        | nil =>
          cases hsplit
          rw [hx] at hx'
          cases hx'
        | cons first front =>
          cases hsplit
          exact ⟨front, x', rest, rfl, fun x'' h'' => hfront x'' (List.mem_cons_of_mem _ h''), hx'⟩

end

/-! ## Reading is exact -/

/-- No symbol is named as the end of a rule is. -/
theorem unexpected_ne_unfinished (s : Symbol) :
    (RuleFault.unexpected s).message ≠ RuleFault.unfinished.message := by
  -- the name of a symbol does not begin with the letter of the other wording
  have hfirst : s.describe.toList.head? ≠ some 'e' := by
    cases s <;> simp [Symbol.describe]
  intro h
  have hsame : "unexpected " ++ s.describe = "unexpected " ++ "end of rule" := h
  have hletters := congrArg String.toList hsame
  rw [String.toList_append, String.toList_append] at hletters
  rw [List.append_cancel_left hletters] at hfirst
  exact hfirst (by decide)

/-- Rules are read exactly.  A rule is read if its body is a body of the dialect, and is written
    as it was; otherwise its one fault is reported.  Rules are read in the order in which they
    stand, and the fault of the first that has one is reported. -/
theorem rules_read_exactly :
    (∀ r : RuleText, r.IsReadExactly) ∧
    (∀ placed, (∃ rules, IsCut placed rules) ↔
      placed = [] ∨ ∃ name, [Symbol.rule name, Symbol.define] <+: placed.map (·.symbol)) ∧
    (∀ placed rules, IsCut placed rules →
      (∀ drafts, RuleDraft.ofSymbols? placed = .ok drafts ↔
        List.Forall₂ (fun r d => r.read = .ok d) rules drafts) ∧
      ∀ e, RuleDraft.ofSymbols? placed = .error e ↔
        ∃ front r rest, rules = front ++ r :: rest ∧
          (∀ r' ∈ front, IsBody r'.bodySymbols) ∧ r.IsFault e) ∧
    RuleFault.emptyBody.message = "empty rule body" ∧
    RuleFault.unfinished.message = "unexpected end of rule" ∧
    ∀ s, (RuleFault.unexpected s).message = "unexpected " ++ s.describe ∧
      (RuleFault.unexpected s).message ≠ RuleFault.unfinished.message := by
  refine ⟨RuleText.isReadExactly, exists_isCut_iff, ?_, rfl, rfl, ?_⟩
  · intro placed rules hcut
    have hread : RuleDraft.ofSymbols? placed = rules.mapM RuleText.read := by
      unfold RuleDraft.ofSymbols?
      rw [hcut.cut_eq]
    rw [hread]
    refine ⟨fun drafts => mapM_eq_ok, ?_⟩
    intro e
    rw [mapM_eq_error]
    constructor
    · intro h
      obtain ⟨front, r, rest, hsplit, hfront, he⟩ := h
      refine ⟨front, r, rest, hsplit, ?_, (r.isReadExactly.rejects e).mp he⟩
      intro r' hr'
      exact r'.isReadExactly.accepts.mp (hfront r' hr')
    · intro h
      obtain ⟨front, r, rest, hsplit, hfront, he⟩ := h
      refine ⟨front, r, rest, hsplit, ?_, (r.isReadExactly.rejects e).mpr he⟩
      intro r' hr'
      exact r'.isReadExactly.accepts.mpr (hfront r' hr')
  · intro s
    exact ⟨rfl, unexpected_ne_unfinished s⟩

end Compositing.Grammar
