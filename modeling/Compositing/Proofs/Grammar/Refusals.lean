import Compositing.Proofs.Grammar.Drafting

/-! # First refusals

    References are resolved and terminals are linked in one pass over the
    rules, and the pass ends at the first item that is refused.  So what it
    reports is the first such item in the order of the text, however deep it
    stands in groups, with the rule it stands in. -/

namespace Compositing.Grammar

/-! ## Errors of results -/

/-- The error of a result, if it is one. -/
def refusal? {ε β : Type} : Except ε β → Option ε
  | .error e => some e
  | .ok _ => none

section
variable {ε β γ : Type}

theorem refusal?_eq_some {x : Except ε β} {e : ε} : refusal? x = some e ↔ x = .error e := by
  cases x <;> simp [refusal?]

theorem refusal?_eq_none {x : Except ε β} : refusal? x = none ↔ ∃ b, x = .ok b := by
  cases x <;> simp [refusal?]

@[simp] theorem refusal?_ok (b : β) : refusal? (.ok b : Except ε β) = none := rfl

@[simp] theorem refusal?_error (e : ε) : refusal? (.error e : Except ε β) = some e := rfl

@[simp] theorem refusal?_map (f : β → γ) (x : Except ε β) : refusal? (x.map f) = refusal? x := by
  cases x <;> rfl

/-- The first of two results that is an error is the one reported. -/
theorem refusal?_cons (x : Except ε β) (xs : Except ε (List β)) :
    refusal? (x.bind fun b => xs.map (b :: ·)) = (refusal? x).or (refusal? xs) := by
  cases x with
  | error e => rfl
  | ok b => exact refusal?_map _ xs

/-- A list is refused for the first of its items that is. -/
theorem refusal?_mapM (f : γ → Except ε β) (xs : List γ) :
    refusal? (xs.mapM f) = xs.findSome? fun x => refusal? (f x) := by
  induction xs with
  | nil => rfl
  | cons x xs ih =>
    rw [List.mapM_cons, List.findSome?_cons, ← ih]
    cases f x with
    | error e => rfl
    | ok b => cases xs.mapM f <;> rfl

end

/-! ## The first in the order of the rules -/

/-- A name of a rule, and texts that stand in the rule in order. -/
abbrev Part := String × List String

/-- In the order of the rules, and within a rule in the order of its text, `item` in the rule `name`
    is the first that is not good. -/
def IsFirstBad (good : String → Prop) (parts : List Part) (name item : String) : Prop :=
  ∃ before after front rest, parts = before ++ (name, front ++ item :: rest) :: after ∧
    (∀ part ∈ before, ∀ x ∈ part.2, good x) ∧ (∀ x ∈ front, good x) ∧ ¬ good item

section
variable {good : String → Prop} {bad : String → Bool} (make : String → String → GrammarError)
  {parts : List Part}

/-- Nothing is found in parts in which all is good. -/
theorem find_parts_eq_none (hgood : ∀ x, bad x = false ↔ good x) :
    (parts.findSome? fun part => (part.2.find? bad).map (make part.1)) = none ↔
      ∀ part ∈ parts, ∀ x ∈ part.2, good x := by
  simp only [List.findSome?_eq_none_iff, Option.map_eq_none_iff, List.find?_eq_none,
    Bool.not_eq_true, hgood]

/-- What is found in parts is the first that is not good. -/
theorem find_parts_eq_some (hgood : ∀ x, bad x = false ↔ good x) {e : GrammarError} :
    (parts.findSome? fun part => (part.2.find? bad).map (make part.1)) = some e ↔
      ∃ name item, IsFirstBad good parts name item ∧ e = make name item := by
  have hbad : ∀ x, bad x = true ↔ ¬ good x := by
    intro x
    rw [← hgood, Bool.not_eq_false]
  -- the search over the parts and the search in a part each end at the first hit
  rw [List.findSome?_eq_some_iff]
  constructor
  · intro h
    obtain ⟨before, ⟨name, items⟩, after, hparts, hfound, hbefore⟩ := h
    obtain ⟨item, hitem, he⟩ := Option.map_eq_some_iff.mp hfound
    obtain ⟨hrefused, front, rest, hitems, hfront⟩ := List.find?_eq_some_iff_append.mp hitem
    refine ⟨name, item, ⟨before, after, front, rest, ?_, ?_, ?_, (hbad item).mp hrefused⟩,
      he.symm⟩
    · rw [hparts]
      exact congrArg (fun items => before ++ (name, items) :: after) hitems
    · intro part hpart x hx
      have hnone := List.find?_eq_none.mp (Option.map_eq_none_iff.mp (hbefore part hpart)) x hx
      exact (hgood x).mp (Bool.not_eq_true _ ▸ hnone)
    · intro x hx
      exact (hgood x).mp (Bool.not_eq_true' _ ▸ hfront x hx)
  · intro h
    obtain ⟨name, item, ⟨before, after, front, rest, hparts, hbefore, hfront, hitem⟩, rfl⟩ := h
    refine ⟨before, (name, front ++ item :: rest), after, hparts, ?_, ?_⟩
    · have hfound : (front ++ item :: rest).find? bad = some item := by
        refine List.find?_eq_some_iff_append.mpr ⟨(hbad item).mpr hitem, front, rest, rfl, ?_⟩
        intro x hx
        rw [(hgood x).mpr (hfront x hx)]
        rfl
      rw [hfound]
      rfl
    · intro part hpart
      rw [Option.map_eq_none_iff, List.find?_eq_none]
      intro x hx
      rw [(hgood x).mpr (hbefore part hpart x hx)]
      exact Bool.false_ne_true

end
end Compositing.Grammar
