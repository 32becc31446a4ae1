import Compositing.Language

/-! # Cutting a statement into units

    A unit is a token with an action and the tokens without action behind it.
    Tokens that begin with an action are made of units in one way only: each
    unit goes on up to the next token that has an action, or to the end. -/

namespace Compositing.ActionUnit
variable {α : Type} {action? : Nat → Option α} {tokens leading : List Token}
  {units : List (ActionUnit α)}

/-- The units make up the tokens; each begins with the one token of it that has an action. -/
structure IsCut (action? : Nat → Option α) (tokens : List Token) (units : List (ActionUnit α)) :
    Prop where
  tokens_eq : tokens = units.flatMap fun u => u.token :: u.arguments
  action : ∀ u ∈ units, action? u.token.id = some u.action
  arguments : ∀ u ∈ units, ∀ t ∈ u.arguments, action? t.id = none

/-- Tokens that begin no action lead what is cut off after them. -/
theorem cut_append (hleading : ∀ t ∈ leading, action? t.id = none)
    (htokens : cut action? tokens = ([], units)) :
    cut action? (leading ++ tokens) = (leading, units) := by
  induction leading with
  | nil => exact htokens
  | cons t leading ih =>
    rw [List.forall_mem_cons] at hleading
    simp only [List.cons_append, cut, ih hleading.2, hleading.1]

/-- The first token has no action, or it begins a unit with the tokens that lead the others. -/
theorem cut_cons {t : Token} {rest : List Token}
    (h : cut action? (t :: rest) = (leading, units)) :
    (action? t.id = none ∧ ∃ inner, leading = t :: inner ∧ cut action? rest = (inner, units)) ∨
    (leading = [] ∧ ∃ action inner others, action? t.id = some action ∧
      units = ⟨action, t, inner⟩ :: others ∧ cut action? rest = (inner, others)) := by
  rcases hrest : cut action? rest with ⟨inner, others⟩
  cases haction : action? t.id with
  | none =>
    simp only [cut, hrest, haction] at h
    cases h
    exact .inl ⟨rfl, inner, rfl, rfl⟩
  | some action =>
    simp only [cut, hrest, haction] at h
    cases h
    exact .inr ⟨rfl, action, inner, others, rfl, rfl, rfl⟩

/-- What is cut off are tokens without action and units that make up the other tokens. -/
theorem isCut_of_cut (h : cut action? tokens = (leading, units)) :
    (∀ t ∈ leading, action? t.id = none) ∧
      ∃ rest, tokens = leading ++ rest ∧ IsCut action? rest units := by
  -- the tokens behind the first one are cut already: either it leads them as well, or what
  -- leads them are the arguments of the unit it begins
  induction tokens generalizing leading units with
  | nil =>
    cases h
    exact ⟨by simp, [], rfl, rfl, by simp, by simp⟩
  | cons t rest ih =>
    rcases cut_cons h with ⟨hnone, inner, rfl, hrest⟩ | ⟨rfl, action, inner, others, haction,
      rfl, hrest⟩
    · obtain ⟨hinner, rest', rfl, hcut⟩ := ih hrest
      exact ⟨List.forall_mem_cons.mpr ⟨hnone, hinner⟩, rest', rfl, hcut⟩
    · obtain ⟨hinner, rest', rfl, hcut⟩ := ih hrest
      refine ⟨by simp, _, rfl, ?_, ?_, ?_⟩
      · rw [List.flatMap_cons, ← hcut.tokens_eq]
        rfl
      · exact List.forall_mem_cons.mpr ⟨haction, hcut.action⟩
      · exact List.forall_mem_cons.mpr ⟨hinner, hcut.arguments⟩

/-- Cutting takes no token away. -/
theorem tokens_of_cut (h : cut action? tokens = (leading, units)) :
    tokens = leading ++ units.flatMap fun u => u.token :: u.arguments := by
  obtain ⟨_, rest, rfl, hcut⟩ := isCut_of_cut h
  rw [← hcut.tokens_eq]

/-- Tokens that are made of units are cut into these. -/
theorem IsCut.cut_eq (h : IsCut action? tokens units) : cut action? tokens = ([], units) := by
  obtain ⟨rfl, haction, harguments⟩ := h
  induction units with
  | nil => rfl
  | cons u units ih =>
    rw [List.forall_mem_cons] at haction harguments
    have hunits := ih haction.2 harguments.2
    -- the arguments of the unit lead the other units
    have hrest := cut_append harguments.1 hunits
    simp only [List.flatMap_cons, List.cons_append, cut, hrest, haction.1]

/-- The units of some tokens are those that the tokens are cut into, with nothing before them. -/
theorem isCut_iff : IsCut action? tokens units ↔ cut action? tokens = ([], units) := by
  constructor
  · exact IsCut.cut_eq
  · intro h
    obtain ⟨_, rest, rfl, hcut⟩ := isCut_of_cut h
    exact hcut

/-- A unit begins with the token that has its action. -/
theorem action?_of_mem_cut {u : ActionUnit α} (hu : u ∈ (cut action? tokens).2) :
    action? u.token.id = some u.action := by
  obtain ⟨_, _, _, hcut⟩ := isCut_of_cut (Eq.refl (cut action? tokens))
  exact hcut.action u hu

end Compositing.ActionUnit
