import Compositing.Lexicon

/-! # Registered keywords

    A registration that is granted adds its keyword behind the others; one that
    is refused leaves the lexicon as it is.  So in a lexicon that was filled by
    registrations no keyword is blank or has a reserved id, and no two share
    their id or their text, up to case where case does not count: a keyword is
    found by its id and by its text. -/

namespace Compositing.Lexicon
variable {α : Type} {lexicon lexicon' : Lexicon α} {entry : Lexeme α}

/-! ## Registering -/

/-- A lexicon that registrations lead to from one without keywords. -/
inductive Registered : Lexicon α → Prop where
  | empty (caseSensitive : Bool) : Registered (empty caseSensitive)
  | register {lexicon lexicon' : Lexicon α} {text : String} {id : Nat} {action : Option α}
    (h : Registered lexicon) (hregister : lexicon.register text id action = .ok lexicon') :
    Registered lexicon'

/-- What a registration that is granted has asked for and done. -/
theorem register_ok {text : String} {id : Nat} {action : Option α}
    (h : lexicon.register text id action = .ok lexicon') :
    Text.isAllBlank text.toList = false ∧ id < Token.reservedBase ∧
      lexicon.lookup text = none ∧ lexicon.lookupId id = none ∧
      lexicon' = { lexicon with
        entries := lexicon.entries ++
          [⟨text, id, action, decide (2 ≤ (Text.words text.toList).length)⟩] } := by
  unfold register at h
  by_cases hblank : Text.isAllBlank text.toList = true
  · rw [if_pos hblank] at h
    cases h
  rw [if_neg hblank] at h
  by_cases hreserved : Token.reservedBase ≤ id
  · rw [if_pos hreserved] at h
    cases h
  rw [if_neg hreserved] at h
  by_cases htext : (lexicon.lookup text).isSome = true
  · rw [if_pos htext] at h
    cases h
  rw [if_neg htext] at h
  cases hid : lexicon.lookupId id with
  | some existing =>
    rw [hid] at h
    cases h
  | none =>
    rw [hid] at h
    cases h
    have hnone : lexicon.lookup text = none := by
      simpa using htext
    exact ⟨by simpa using hblank, by omega, hnone, rfl, rfl⟩

/-! ## Consistent lexicons -/

/-- No keyword is blank or has a reserved id, and no two share their id or their text. -/
structure IsConsistent (lexicon : Lexicon α) : Prop where
  spelled : ∀ entry ∈ lexicon.entries, Text.isAllBlank entry.text.toList = false
  unreserved : ∀ entry ∈ lexicon.entries, entry.id < Token.reservedBase
  distinct : lexicon.entries.Pairwise fun a b =>
    a.id ≠ b.id ∧ lexicon.key a.text ≠ lexicon.key b.text

/-- Registrations lead to consistent lexicons. -/
theorem Registered.isConsistent (h : lexicon.Registered) : lexicon.IsConsistent := by
  induction h with
  | empty caseSensitive => exact ⟨by simp [Lexicon.empty], by simp [Lexicon.empty], .nil⟩
  | @register lexicon lexicon' text id action _ hregister ih =>
    obtain ⟨hspelled, hid, htext, hfree, rfl⟩ := register_ok hregister
    refine ⟨?_, ?_, ?_⟩
    · exact List.forall_mem_append.mpr ⟨ih.spelled, List.forall_mem_singleton.mpr hspelled⟩
    · exact List.forall_mem_append.mpr ⟨ih.unreserved, List.forall_mem_singleton.mpr hid⟩
    · refine List.pairwise_append.mpr ⟨ih.distinct, List.pairwise_singleton _ _, ?_⟩
      -- the new keyword was looked for among the old ones, by its id and by its text
      intro old hold new hnew
      rw [List.mem_singleton.mp hnew]
      have hid : old.id ≠ id := by
        simpa using List.find?_eq_none.mp hfree old hold
      have htext : lexicon.key old.text ≠ lexicon.key text := by
        simpa using List.find?_eq_none.mp htext old hold
      exact ⟨hid, htext⟩

/-- An item is found by what it shares with no other. -/
theorem find?_of_distinct {β κ : Type} [BEq κ] [LawfulBEq κ] {key : β → κ} {items : List β}
    {item : β} (h : items.Pairwise fun a b => key a ≠ key b) (hitem : item ∈ items) :
    items.find? (key · == key item) = some item := by
  induction items with
  | nil => cases hitem
  | cons first rest ih =>
    obtain ⟨hfirst, hrest⟩ := List.pairwise_cons.mp h
    rcases List.mem_cons.mp hitem with rfl | hitem
    · simp
    · have hne : (key first == key item) = false := by
        simpa using hfirst item hitem
      rw [List.find?_cons, hne]
      exact ih hrest hitem

namespace IsConsistent

/-- A keyword is found by its id. -/
theorem lookupId_of_mem (h : lexicon.IsConsistent) (hentry : entry ∈ lexicon.entries) :
    lexicon.lookupId entry.id = some entry :=
  find?_of_distinct (h.distinct.imp And.left) hentry

/-- A keyword is found by its text. -/
theorem lookup_of_mem (h : lexicon.IsConsistent) (hentry : entry ∈ lexicon.entries) :
    lexicon.lookup entry.text = some entry :=
  find?_of_distinct (h.distinct.imp And.right) hentry

/-- Only an id that is not reserved begins an action. -/
theorem id_lt_of_action? (h : lexicon.IsConsistent) {id : Nat}
    (haction : (lexicon.action? id).isSome) : id < Token.reservedBase := by
  unfold action? at haction
  cases hentry : lexicon.lookupId id with
  | none =>
    rw [hentry] at haction
    cases haction
  | some entry =>
    have hid : entry.id = id := by
      simpa using List.find?_some hentry
    have hlt := h.unreserved entry (List.mem_of_find?_eq_some hentry)
    omega

end IsConsistent

/-- What is found by a text is a keyword whose text is the same, up to case where case does not
    count. -/
theorem of_lookup {text : String} (h : lexicon.lookup text = some entry) :
    entry ∈ lexicon.entries ∧ lexicon.key entry.text = lexicon.key text := by
  refine ⟨List.mem_of_find?_eq_some h, ?_⟩
  simpa using List.find?_some h

end Compositing.Lexicon
