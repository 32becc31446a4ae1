import Compositing.Proofs.Language.Registering
import Compositing.Proofs.Text.Folding
import Mathlib.Data.List.Nodup

/-! # Indexed keywords

    Keywords are found through two tables, by what their texts are compared by
    and by their ids, each of which says where the keyword stands among the
    entries.  A registration is tested against the tables and then entered in
    both, so whatever is registered, granted or refused, the tables lead to
    the keywords and to nothing else: an indexed lexicon answers as a lexicon
    that is searched from its beginning. -/

namespace Compositing

/-! ## Registrations -/

/-- A keyword that is asked for. -/
structure Registration (α : Type) where
  text : String
  id : Nat
  action : Option α

variable {α : Type}

/-- The keyword of a registration that is granted. -/
def Registration.lexeme (r : Registration α) : Lexeme α :=
  ⟨r.text, r.id, r.action, 2 ≤ (Text.words r.text.toList).length⟩

/-- A lexicon with tables of where its keywords stand. -/
structure Indexed (α : Type) extends Lexicon α where
  byKey : Std.HashMap String Nat
  byId : Std.HashMap Nat Nat

namespace Indexed

/-- No keywords yet. -/
def empty (caseSensitive : Bool) : Indexed α := ⟨.empty caseSensitive, ∅, ∅⟩

/-- The keyword found by its text. -/
def find? (x : Indexed α) (text : String) : Option (Lexeme α) :=
  x.byKey[x.key text]?.bind (x.entries[·]?)

/-- The keyword found by its id. -/
def findId? (x : Indexed α) (id : Nat) : Option (Lexeme α) := x.byId[id]?.bind (x.entries[·]?)

/-- The lexicon with one more keyword, entered in both tables. -/
def entered (x : Indexed α) (r : Registration α) : Indexed α :=
  { x with
    entries := x.entries ++ [r.lexeme]
    byKey := x.byKey.insert (x.key r.text) x.entries.length
    byId := x.byId.insert r.id x.entries.length }

/-- What a registration is answered, and the lexicon after it. -/
def register (x : Indexed α) (r : Registration α) : Except LexemeError Unit × Indexed α :=
  if Text.isAllBlank r.text.toList then (.error .blank, x)
  else if Token.reservedBase ≤ r.id then (.error (.reservedId r.id), x)
  else if x.byKey.contains (x.key r.text) then (.error (.duplicateText r.text), x)
  else
    match x.byId[r.id]? with
    | some place =>
      let existing := (x.entries[place]?).map (·.text)
      (.error (.duplicateId r.id (existing.getD "")), x)
    | none => (.ok (), x.entered r)

/-- Registers one after the other, whatever the answers. -/
def registerEach (x : Indexed α) :
    List (Registration α) → List (Except LexemeError Unit) × Indexed α
  | [] => ([], x)
  | r :: rest =>
    let (answers, y) := (x.register r).2.registerEach rest
    ((x.register r).1 :: answers, y)

end Indexed

/-- The keywords of the registrations that were granted, in order. -/
def granted : List (Registration α) → List (Except LexemeError Unit) → List (Lexeme α)
  | r :: calls, .ok _ :: answers => r.lexeme :: granted calls answers
  | _ :: calls, .error _ :: answers => granted calls answers
  | _, _ => []

/-! ## Which registrations are refused -/

/-- Two texts are the same letter by letter, up to case where it does not count. -/
def SameText (caseSensitive : Bool) (a b : String) : Prop :=
  Text.Spells caseSensitive a.toList b.toList

namespace Lexicon
variable {lexicon : Lexicon α}

/-- Texts are compared letter by letter. -/
theorem key_eq_iff {a b : String} :
    lexicon.key a = lexicon.key b ↔ SameText lexicon.caseSensitive a b := by
  rw [SameText, Text.spells_iff, key, key]
  cases lexicon.caseSensitive with
  | true => simp [String.toList_inj]
  | false => simp [String.ofList_inj]

/-- The registration is granted: its text is not blank, its id is not reserved, and no keyword has
    its text or its id. -/
structure Accepts (lexicon : Lexicon α) (r : Registration α) : Prop where
  spelled : Text.isAllBlank r.text.toList = false
  unreserved : r.id < Token.reservedBase
  newText : ∀ entry ∈ lexicon.entries, ¬ SameText lexicon.caseSensitive entry.text r.text
  newId : ∀ entry ∈ lexicon.entries, entry.id ≠ r.id

/-- The first of these that fails. -/
inductive Refuses (lexicon : Lexicon α) (r : Registration α) : LexemeError → Prop where
  | blank (hblank : Text.isAllBlank r.text.toList = true) : Refuses lexicon r .blank
  | reservedId (hspelled : Text.isAllBlank r.text.toList = false)
    (hreserved : Token.reservedBase ≤ r.id) : Refuses lexicon r (.reservedId r.id)
  | duplicateText {entry} (hspelled : Text.isAllBlank r.text.toList = false)
    (hunreserved : r.id < Token.reservedBase) (hentry : entry ∈ lexicon.entries)
    (htext : SameText lexicon.caseSensitive entry.text r.text) :
    Refuses lexicon r (.duplicateText r.text)
  | duplicateId {entry} (hspelled : Text.isAllBlank r.text.toList = false)
    (hunreserved : r.id < Token.reservedBase)
    (hnew : ∀ entry ∈ lexicon.entries, ¬ SameText lexicon.caseSensitive entry.text r.text)
    (hentry : entry ∈ lexicon.entries) (hid : entry.id = r.id) :
    Refuses lexicon r (.duplicateId r.id entry.text)

/-- A text is found if a keyword has it. -/
theorem isSome_lookup (lexicon : Lexicon α) (text : String) :
    (lexicon.lookup text).isSome = true ↔
      ∃ entry ∈ lexicon.entries, SameText lexicon.caseSensitive entry.text text := by
  rw [lookup, List.find?_isSome]
  simp only [beq_iff_eq, key_eq_iff]

/-- A registration that is refused fails a test. -/
theorem refuses_of_register {r : Registration α} {e : LexemeError}
    (h : lexicon.register r.text r.id r.action = .error e) : lexicon.Refuses r e := by
  -- the tests in their order: what passes one is known to the next
  unfold register at h
  split at h
  · rename_i hblank
    cases h
    exact .blank hblank
  rename_i hspelled
  rw [Bool.not_eq_true] at hspelled
  split at h
  · rename_i hreserved
    cases h
    exact .reservedId hspelled hreserved
  rename_i hbelow
  have hunreserved : r.id < Token.reservedBase := by omega
  split at h
  · rename_i htaken
    cases h
    obtain ⟨entry, hentry, htext⟩ := (lexicon.isSome_lookup r.text).mp htaken
    exact .duplicateText hspelled hunreserved hentry htext
  rename_i hnew
  rw [isSome_lookup] at hnew
  split at h
  · rename_i existing hexisting
    cases h
    refine .duplicateId hspelled hunreserved ?_ (List.mem_of_find?_eq_some hexisting) ?_
    · intro entry hentry htext
      exact hnew ⟨entry, hentry, htext⟩
    · simpa using List.find?_some hexisting
  · cases h

/-- A registration that fails a test is refused. -/
theorem Refuses.register_eq_error (hconsistent : lexicon.IsConsistent) {r : Registration α}
    {e : LexemeError} (h : lexicon.Refuses r e) :
    lexicon.register r.text r.id r.action = .error e := by
  unfold register
  cases h with
  | blank hblank => rw [if_pos hblank]
  | reservedId hspelled hreserved => rw [if_neg (by simp [hspelled]), if_pos hreserved]
  | duplicateText hspelled hunreserved hentry htext =>
    have htaken := (lexicon.isSome_lookup r.text).mpr ⟨_, hentry, htext⟩
    rw [if_neg (by simp [hspelled]), if_neg (by omega), if_pos htaken]
  | duplicateId hspelled hunreserved hnew hentry hid =>
    have hfree : ¬ (lexicon.lookup r.text).isSome = true := by
      rw [isSome_lookup]
      intro htaken
      obtain ⟨entry, hentry, htext⟩ := htaken
      exact hnew entry hentry htext
    have hexisting := hconsistent.lookupId_of_mem hentry
    rw [hid] at hexisting
    rw [if_neg (by simp [hspelled]), if_neg (by omega), if_neg hfree, hexisting]

/-- A registration is granted unless it fails a test. -/
theorem accepts_iff (hconsistent : lexicon.IsConsistent) {r : Registration α} :
    lexicon.Accepts r ↔ ∀ e, ¬ lexicon.Refuses r e := by
  constructor
  · intro h e hrefuses
    cases hrefuses with
    | blank hblank => exact absurd h.spelled (by simp [hblank])
    | reservedId _ hreserved => exact absurd h.unreserved (by omega)
    | duplicateText _ _ hentry htext => exact h.newText _ hentry htext
    | duplicateId _ _ _ hentry hid => exact h.newId _ hentry hid
  · intro h
    cases hresult : lexicon.register r.text r.id r.action with
    | error e => exact absurd (refuses_of_register hresult) (h e)
    | ok lexicon' =>
      obtain ⟨hspelled, hunreserved, htext, hid, _⟩ := register_ok hresult
      refine ⟨hspelled, hunreserved, ?_, ?_⟩
      · intro entry hentry hsame
        have htaken := (lexicon.isSome_lookup r.text).mpr ⟨entry, hentry, hsame⟩
        rw [htext] at htaken
        cases htaken
      · intro entry hentry hsame
        have hfound := hconsistent.lookupId_of_mem hentry
        rw [hsame, hid] at hfound
        cases hfound

end Lexicon

namespace Indexed
variable {x : Indexed α}

/-! ## Tables in step with the entries -/

/-- The table leads from a key to where the item with the key stands, and to nothing else. -/
def IsTable {β κ : Type} [BEq κ] [Hashable κ] (key : β → κ) (items : List β)
    (table : Std.HashMap κ Nat) : Prop :=
  ∀ k place, table[k]? = some place ↔ ∃ item, items[place]? = some item ∧ key item = k

section
variable {β κ : Type} [BEq κ] [Hashable κ] {key : β → κ} {items : List β}
  {table : Std.HashMap κ Nat}

theorem isTable_empty : IsTable key [] ∅ := by
  intro k place
  simp

/-- What a table leads to is an item with the key. -/
theorem IsTable.bind_eq_some (h : IsTable key items table) {k : κ} {item : β} :
    table[k]?.bind (items[·]?) = some item ↔ item ∈ items ∧ key item = k := by
  rw [Option.bind_eq_some_iff]
  constructor
  · intro hfound
    obtain ⟨place, hplace, hitem⟩ := hfound
    obtain ⟨item', hitem', hkey⟩ := (h k place).mp hplace
    cases hitem.symm.trans hitem'
    exact ⟨List.mem_of_getElem? hitem, hkey⟩
  · intro hitem
    obtain ⟨hmem, hkey⟩ := hitem
    obtain ⟨place, hplace⟩ := List.mem_iff_getElem?.mp hmem
    exact ⟨place, (h k place).mpr ⟨item, hplace, hkey⟩, hplace⟩

variable [LawfulBEq κ]

/-- A table has the keys of the items. -/
theorem IsTable.contains_eq_true (h : IsTable key items table) {k : κ} :
    table.contains k = true ↔ ∃ item ∈ items, key item = k := by
  rw [Std.HashMap.contains_eq_isSome_getElem?, Option.isSome_iff_exists]
  constructor
  · intro hfound
    obtain ⟨place, hplace⟩ := hfound
    obtain ⟨item, hitem, hkey⟩ := (h k place).mp hplace
    exact ⟨item, List.mem_of_getElem? hitem, hkey⟩
  · intro hitem
    obtain ⟨item, hmem, hkey⟩ := hitem
    obtain ⟨place, hplace⟩ := List.mem_iff_getElem?.mp hmem
    exact ⟨place, (h k place).mpr ⟨item, hplace, hkey⟩⟩

/-- An item with a new key is entered behind the others. -/
theorem IsTable.insert (h : IsTable key items table) (item : β)
    (hnew : ∀ other ∈ items, key other ≠ key item) :
    IsTable key (items ++ [item]) (table.insert (key item) items.length) := by
  intro k place
  rw [Std.HashMap.getElem?_insert]
  by_cases hk : key item = k
  · -- the new key leads to the new place, which no other item has
    rw [if_pos (by simpa using hk), Option.some.injEq]
    constructor
    · intro hplace
      rw [← hplace]
      exact ⟨item, by simp, hk⟩
    · intro hfound
      obtain ⟨other, hother, hkey⟩ := hfound
      by_cases hplace : place < items.length
      · rw [List.getElem?_append_left hplace] at hother
        exact absurd (hkey.trans hk.symm) (hnew other (List.mem_of_getElem? hother))
      · have hlast := (List.getElem?_eq_some_iff.mp hother).1
        rw [List.length_append, List.length_singleton] at hlast
        omega
  · -- any other key leads where it led before, and the new place is not of its items
    rw [if_neg (by simpa using hk), h]
    constructor
    · intro hfound
      obtain ⟨other, hother, hkey⟩ := hfound
      refine ⟨other, ?_, hkey⟩
      rw [List.getElem?_append_left (List.getElem?_eq_some_iff.mp hother).1, hother]
    · intro hfound
      obtain ⟨other, hother, hkey⟩ := hfound
      by_cases hplace : place < items.length
      · rw [List.getElem?_append_left hplace] at hother
        exact ⟨other, hother, hkey⟩
      · rw [List.getElem?_append_right (by omega), List.getElem?_singleton] at hother
        split at hother
        · cases hother
          exact absurd hkey hk
        · cases hother

end

/-- The lexicon was filled by registrations, and both tables are in step with its entries. -/
structure IsIndexed (x : Indexed α) : Prop where
  registered : x.toLexicon.Registered
  byKey : IsTable (fun entry : Lexeme α => x.key entry.text) x.entries x.byKey
  byId : IsTable Lexeme.id x.entries x.byId

theorem isIndexed_empty (caseSensitive : Bool) : (empty caseSensitive : Indexed α).IsIndexed where
  registered := .empty caseSensitive
  byKey := isTable_empty
  byId := isTable_empty

namespace IsIndexed

/-- What is found by its text is a keyword that has it. -/
theorem find?_eq_some (h : x.IsIndexed) {text : String} {entry : Lexeme α} :
    x.find? text = some entry ↔ entry ∈ x.entries ∧ SameText x.caseSensitive entry.text text := by
  rw [find?, h.byKey.bind_eq_some, Lexicon.key_eq_iff]

/-- What is found by its id is a keyword that has it. -/
theorem findId?_eq_some (h : x.IsIndexed) {id : Nat} {entry : Lexeme α} :
    x.findId? id = some entry ↔ entry ∈ x.entries ∧ entry.id = id :=
  h.byId.bind_eq_some

/-- The tables lead where a search from the beginning ends. -/
theorem find?_eq_lookup (h : x.IsIndexed) (text : String) :
    x.find? text = x.toLexicon.lookup text := by
  apply Option.ext
  intro entry
  rw [find?_eq_some h, ← Lexicon.key_eq_iff]
  constructor
  · intro hentry
    obtain ⟨hmem, hkey⟩ := hentry
    have hfound := h.registered.isConsistent.lookup_of_mem hmem
    rw [← hfound, Lexicon.lookup, Lexicon.lookup, hkey]
  · exact Lexicon.of_lookup

theorem findId?_eq_lookupId (h : x.IsIndexed) (id : Nat) :
    x.findId? id = x.toLexicon.lookupId id := by
  apply Option.ext
  intro entry
  rw [findId?_eq_some h]
  constructor
  · intro hentry
    obtain ⟨hmem, rfl⟩ := hentry
    exact h.registered.isConsistent.lookupId_of_mem hmem
  · intro hfound
    refine ⟨List.mem_of_find?_eq_some hfound, ?_⟩
    simpa using List.find?_some hfound

/-! ## Registering -/

/-- A registration is answered as the lexicon answers it, and changes the lexicon alike. -/
theorem register_eq (h : x.IsIndexed) (r : Registration α) :
    x.toLexicon.register r.text r.id r.action =
      (x.register r).1.map fun _ => (x.register r).2.toLexicon := by
  have htexts : x.byKey.contains (x.key r.text) = (x.toLexicon.lookup r.text).isSome := by
    rw [Bool.eq_iff_iff, h.byKey.contains_eq_true, Lexicon.isSome_lookup]
    simp only [Lexicon.key_eq_iff]
  -- the same tests are made of both, once a table answers as the search does
  unfold Lexicon.register Indexed.register
  rw [htexts, ← findId?_eq_lookupId h, findId?]
  split
  · rfl
  split
  · rfl
  split
  · rfl
  cases hplace : x.byId[r.id]? with
  | none => rfl
  | some place =>
    -- the table leads to a keyword, whose text is reported
    obtain ⟨entry, hentry, _⟩ := (h.byId r.id place).mp hplace
    simp only [Option.bind_some, hentry]
    rfl

end IsIndexed

/-- A registration is refused and changes nothing, tables included, or is granted and entered. -/
theorem register_cases (x : Indexed α) (r : Registration α) :
    (∃ e, x.register r = (.error e, x)) ∨ x.register r = (.ok (), x.entered r) := by
  unfold register
  split
  · exact .inl ⟨_, rfl⟩
  split
  · exact .inl ⟨_, rfl⟩
  split
  · exact .inl ⟨_, rfl⟩
  split
  · exact .inl ⟨_, rfl⟩
  · exact .inr rfl

namespace IsIndexed

/-- Registering keeps the tables in step with the entries. -/
theorem register (h : x.IsIndexed) (r : Registration α) : (x.register r).2.IsIndexed := by
  have hlexicon := register_eq h r
  rcases x.register_cases r with ⟨e, hrefused⟩ | hgranted
  · rw [hrefused]
    exact h
  · rw [hgranted] at hlexicon ⊢
    obtain ⟨_, _, htext, hid, _⟩ := Lexicon.register_ok hlexicon
    -- the tests were passed, so neither the text nor the id is that of an entry
    refine ⟨.register h.registered hlexicon, ?_, ?_⟩
    · refine h.byKey.insert r.lexeme ?_
      intro entry hentry hkey
      have hfound := List.find?_eq_none.mp htext entry hentry
      exact hfound (beq_iff_eq.mpr hkey)
    · refine h.byId.insert r.lexeme ?_
      intro entry hentry hsame
      have hfound := List.find?_eq_none.mp hid entry hentry
      exact hfound (beq_iff_eq.mpr hsame)

/-- The answer is an error exactly if a test fails, and that of the first test that does. -/
theorem register_eq_error (h : x.IsIndexed) {r : Registration α} {e : LexemeError} :
    (x.register r).1 = .error e ↔ x.toLexicon.Refuses r e := by
  have hlexicon := register_eq h r
  constructor
  · intro herror
    rw [herror] at hlexicon
    exact Lexicon.refuses_of_register hlexicon
  · intro hrefuses
    rw [hrefuses.register_eq_error h.registered.isConsistent] at hlexicon
    cases hanswer : (x.register r).1 with
    | error e' =>
      rw [hanswer] at hlexicon
      cases hlexicon
      rfl
    | ok _ =>
      rw [hanswer] at hlexicon
      cases hlexicon

theorem register_eq_ok (h : x.IsIndexed) {r : Registration α} :
    (x.register r).1 = .ok () ↔ x.toLexicon.Accepts r := by
  rw [Lexicon.accepts_iff h.registered.isConsistent]
  simp only [← register_eq_error h]
  cases (x.register r).1 <;> simp

end IsIndexed

/-! ## Registrations in a row -/

/-- Registrations in a row keep the tables in step, and the entries are the old ones and then the
    keywords that were granted. -/
theorem IsIndexed.registerEach (h : x.IsIndexed) (calls : List (Registration α)) :
    (x.registerEach calls).2.IsIndexed ∧
      (x.registerEach calls).2.caseSensitive = x.caseSensitive ∧
      (x.registerEach calls).1.length = calls.length ∧
      (x.registerEach calls).2.entries =
        x.entries ++ granted calls (x.registerEach calls).1 := by
  induction calls generalizing x with
  | nil => exact ⟨h, rfl, rfl, (List.append_nil _).symm⟩
  | cons r rest ih =>
    obtain ⟨hindexed, hcase, hlength, hentries⟩ := ih (h.register r)
    have hlast : (x.registerEach (r :: rest)).2 = ((x.register r).2.registerEach rest).2 := rfl
    have hanswers : (x.registerEach (r :: rest)).1 =
        (x.register r).1 :: ((x.register r).2.registerEach rest).1 := rfl
    rw [hlast, hanswers]
    -- a refused registration adds nothing to the lexicon and nothing to those granted
    rcases x.register_cases r with ⟨e, hrefused⟩ | hgranted
    · rw [hrefused] at hindexed hcase hlength hentries ⊢
      exact ⟨hindexed, hcase, congrArg Nat.succ hlength, hentries⟩
    · rw [hgranted] at hindexed hcase hlength hentries ⊢
      refine ⟨hindexed, hcase, congrArg Nat.succ hlength, ?_⟩
      rw [hentries, granted, entered, List.append_assoc, List.singleton_append]

/-- Registrations in a row are those in front, and then the others. -/
theorem registerEach_append (x : Indexed α) (before after : List (Registration α)) :
    x.registerEach (before ++ after) =
      ((x.registerEach before).1 ++ ((x.registerEach before).2.registerEach after).1,
        ((x.registerEach before).2.registerEach after).2) := by
  induction before generalizing x with
  | nil => rfl
  | cons r before ih =>
    rw [List.cons_append]
    simp only [Indexed.registerEach, ih, List.cons_append]

/-- Each of the answers is that of the lexicon that the registrations before it have led to. -/
theorem getElem?_registerEach {x : Indexed α} {before : List (Registration α)}
    (hlength : (x.registerEach before).1.length = before.length) (r : Registration α)
    (after : List (Registration α)) :
    (x.registerEach (before ++ r :: after)).1[before.length]? =
      some ((x.registerEach before).2.register r).1 := by
  rw [registerEach_append, ← hlength, List.getElem?_append_right (Nat.le_refl _), Nat.sub_self]
  rfl

/-- The indexed lexicon answers by its keywords: a registration is granted, or refused for the first
    test that fails and then without a trace, a keyword is found by its text and by its id and
    nothing else is, and all is as the lexicon without tables has it. -/
structure IsExact (x : Indexed α) : Prop where
  accepts : ∀ r, (x.register r).1 = .ok () ↔ x.toLexicon.Accepts r
  refuses : ∀ r e, (x.register r).1 = .error e ↔ x.toLexicon.Refuses r e
  keeps : ∀ r e, (x.register r).1 = .error e → (x.register r).2 = x
  find? : ∀ text entry, x.find? text = some entry ↔
    entry ∈ x.entries ∧ SameText x.caseSensitive entry.text text
  findId? : ∀ id entry, x.findId? id = some entry ↔ entry ∈ x.entries ∧ entry.id = id
  own : ∀ entry ∈ x.entries, x.find? entry.text = some entry ∧ x.findId? entry.id = some entry
  register : ∀ r, x.toLexicon.register r.text r.id r.action =
    (x.register r).1.map fun _ => (x.register r).2.toLexicon
  lookup : ∀ text, x.toLexicon.lookup text = x.find? text
  lookupId : ∀ id, x.toLexicon.lookupId id = x.findId? id

theorem IsIndexed.isExact (h : x.IsIndexed) : x.IsExact where
  accepts _ := h.register_eq_ok
  refuses _ _ := h.register_eq_error
  keeps r e herror := by
    rcases x.register_cases r with ⟨e', hrefused⟩ | hgranted
    · rw [hrefused]
    · rw [hgranted] at herror
      cases herror
  find? _ _ := h.find?_eq_some
  findId? _ _ := h.findId?_eq_some
  own entry hentry := by
    refine ⟨h.find?_eq_some.mpr ⟨hentry, ?_⟩, h.findId?_eq_some.mpr ⟨hentry, rfl⟩⟩
    exact Lexicon.key_eq_iff.mp rfl
  register := h.register_eq
  lookup text := (h.find?_eq_lookup text).symm
  lookupId id := (h.findId?_eq_lookupId id).symm

/-- Registering is exact.  Each registration is answered by the lexicon that those before it have
    led to.  After any registrations, granted or refused, the entries are the keywords that were
    granted, in order; both tables are in step with them, and all answers are theirs. -/
theorem registers_exactly (caseSensitive : Bool) (calls : List (Registration α)) :
    let run := (empty caseSensitive : Indexed α).registerEach calls
    run.1.length = calls.length ∧
      (∀ before r after, calls = before ++ r :: after →
        run.1[before.length]? =
          some (((empty caseSensitive).registerEach before).2.register r).1) ∧
      run.2.entries = granted calls run.1 ∧ run.2.caseSensitive = caseSensitive ∧
      run.2.IsIndexed ∧ run.2.IsExact := by
  obtain ⟨hindexed, hcase, hlength, hentries⟩ :=
    (isIndexed_empty caseSensitive).registerEach calls
  refine ⟨hlength, ?_, hentries, hcase, hindexed, hindexed.isExact⟩
  rintro before r after rfl
  obtain ⟨_, _, hbefore, _⟩ := (isIndexed_empty caseSensitive).registerEach before
  exact getElem?_registerEach hbefore r after

end Indexed
end Compositing
