import Compositing.Proofs.Grammar.Display
import Compositing.Proofs.Grammar.Faults
import Compositing.Proofs.Grammar.Refusals
import Mathlib.Data.List.Nodup

/-! # Resolved grammars

    A text becomes a grammar if it is read, the names of its rules are
    distinct, the start is one of them and so is every name that a rule refers
    to, in groups and lookaheads too; the first of these that fails is
    reported.  In the grammar each reference leads to the rule of its name, and
    alternatives stand in groups only, for a group of a single element is that
    element. -/

namespace Compositing

/-! ## Symbols of elements -/

/-- The name of a rule that a symbol refers to. -/
def Grammar.Symbol.reference? : Grammar.Symbol → Option String
  | .rule name => some name
  | _ => none

namespace Element
open Grammar

mutual

/-- The symbols that an element is written with. -/
def symbols : Element → List Symbol
  | .terminal text true _ => [.terminal text]
  | .terminal text false _ => [.silentTerminal text]
  | .rule name _ => [.rule name]
  | .repeated body => .repeatOpen :: (symbols body ++ [.repeatClose])
  | .optional body => .optionalOpen :: (symbols body ++ [.optionalClose])
  | .notAhead body => .lookaheadOpen :: (symbols body ++ [.groupClose])
  | .choice alternatives => alternativesSymbols alternatives
  | .number name => [.number name]
  | .label name => [.label name]
  | .run chars true => [.excludeClass chars]
  | .run chars false => [.includeClass chars]

/-- The symbols of a sequence. -/
def sequenceSymbols : List Element → List Symbol
  | [] => []
  | element :: rest => symbols element ++ sequenceSymbols rest

/-- The symbols of alternatives, with a bar between two. -/
def alternativesSymbols : List (List Element) → List Symbol
  | [] => []
  | [sequence] => sequenceSymbols sequence
  | sequence :: rest => sequenceSymbols sequence ++ .or :: alternativesSymbols rest

end

/-- Where an element stands. -/
inductive Spot where
  /-- In a sequence, beside others. -/
  | sequence
  /-- Between the brackets of a group, by itself. -/
  | group

/-- No element has a token id yet.  References have an index that belongs to their name, at any
    depth.  Alternatives stand in groups only, and are not a single element. -/
inductive IsResolved (leads : String → Nat → Prop) : Spot → Element → Prop where
  | terminal {spot text emits} : IsResolved leads spot (.terminal text emits none)
  | rule {spot name id} (hleads : leads name id) : IsResolved leads spot (.rule name id)
  | repeated {spot body} (hbody : IsResolved leads .group body) :
    IsResolved leads spot (.repeated body)
  | optional {spot body} (hbody : IsResolved leads .group body) :
    IsResolved leads spot (.optional body)
  | notAhead {spot body} (hbody : IsResolved leads .group body) :
    IsResolved leads spot (.notAhead body)
  | choice {alternatives} (hseveral : ∀ e, alternatives ≠ [[e]])
    (hbody : ∀ s ∈ alternatives, ∀ e ∈ s, IsResolved leads .sequence e) :
    IsResolved leads .group (.choice alternatives)
  | number {spot name} : IsResolved leads spot (.number name)
  | label {spot name} : IsResolved leads spot (.label name)
  | run {spot chars negated} : IsResolved leads spot (.run chars negated)

variable {leads : String → Nat → Prop}

/-- What may stand beside others may stand by itself. -/
theorem IsResolved.alone {e : Element} (h : IsResolved leads .sequence e) :
    IsResolved leads .group e := by
  cases h with
  | terminal => exact .terminal
  | rule hleads => exact .rule hleads
  | repeated hbody => exact .repeated hbody
  | optional hbody => exact .optional hbody
  | notAhead hbody => exact .notAhead hbody
  | number => exact .number
  | label => exact .label
  | run => exact .run

theorem IsResolved.imp {leads' : String → Nat → Prop} {spot : Spot} {e : Element}
    (h : IsResolved leads spot e) (himp : ∀ name id, leads name id → leads' name id) :
    IsResolved leads' spot e := by
  induction h with
  | terminal => exact .terminal
  | rule hleads => exact .rule (himp _ _ hleads)
  | repeated _ ih => exact .repeated ih
  | optional _ ih => exact .optional ih
  | notAhead _ ih => exact .notAhead ih
  | choice hseveral _ ih => exact .choice hseveral ih
  | number => exact .number
  | label => exact .label
  | run => exact .run

/-- A group of resolved alternatives is resolved. -/
theorem isResolved_groupBody {alternatives : List (List Element)}
    (h : ∀ s ∈ alternatives, ∀ e ∈ s, IsResolved leads .sequence e) :
    IsResolved leads .group (groupBody alternatives) := by
  unfold groupBody
  split
  · rename_i only
    exact (h [only] List.mem_cons_self only List.mem_cons_self).alone
  · rename_i hseveral
    exact .choice hseveral h

theorem symbols_groupBody (alternatives : List (List Element)) :
    (groupBody alternatives).symbols = alternativesSymbols alternatives := by
  unfold groupBody
  split
  · simp only [alternativesSymbols, sequenceSymbols, List.append_nil]
  · simp only [symbols]

end Element

/-- The name of a rule and the symbols that it is written with. -/
def Rule.content (r : Rule) : String × List Grammar.Symbol :=
  (r.name, Element.alternativesSymbols r.alternatives)

namespace Grammar
open Element

/-! ## What is resolved -/

section
variable {ids : String → Option Nat}

mutual

/-- An element is written with the symbols it was read from, and is resolved. -/
theorem isResolved_of_resolve (d : Draft) {e : Element} (h : resolve ids d = .ok e) :
    e.symbols = d.symbols ∧ IsResolved (fun name id => ids name = some id) .sequence e := by
  cases d with
  | terminal text emits =>
    rw [resolve] at h
    cases h
    refine ⟨?_, .terminal⟩
    cases emits <;> simp only [Element.symbols, Draft.symbols]
  | rule name =>
    rw [resolve] at h
    split at h
    · rename_i id hid
      cases h
      exact ⟨by simp only [Element.symbols, Draft.symbols], .rule hid⟩
    · cases h
  -- a group is what its alternatives become, and is bracketed as it was written
  | repeated body =>
    rw [resolve] at h
    obtain ⟨alternatives, hbody, rfl⟩ := ok_of_map h
    obtain ⟨hsymbols, hresolved⟩ := isResolved_of_resolveAlternatives body hbody
    refine ⟨?_, .repeated (isResolved_groupBody hresolved)⟩
    simp only [Element.symbols, Draft.symbols, symbols_groupBody, hsymbols]
  | optional body =>
    rw [resolve] at h
    obtain ⟨alternatives, hbody, rfl⟩ := ok_of_map h
    obtain ⟨hsymbols, hresolved⟩ := isResolved_of_resolveAlternatives body hbody
    refine ⟨?_, .optional (isResolved_groupBody hresolved)⟩
    simp only [Element.symbols, Draft.symbols, symbols_groupBody, hsymbols]
  | notAhead body =>
    rw [resolve] at h
    obtain ⟨alternatives, hbody, rfl⟩ := ok_of_map h
    obtain ⟨hsymbols, hresolved⟩ := isResolved_of_resolveAlternatives body hbody
    refine ⟨?_, .notAhead (isResolved_groupBody hresolved)⟩
    simp only [Element.symbols, Draft.symbols, symbols_groupBody, hsymbols]
  | number name =>
    rw [resolve] at h
    cases h
    exact ⟨by simp only [Element.symbols, Draft.symbols], .number⟩
  | label name =>
    rw [resolve] at h
    cases h
    exact ⟨by simp only [Element.symbols, Draft.symbols], .label⟩
  | run chars negated =>
    rw [resolve] at h
    cases h
    refine ⟨?_, .run⟩
    cases negated <;> simp only [Element.symbols, Draft.symbols]

theorem isResolved_of_resolveSequence (drafts : List Draft) {elements : List Element}
    (h : resolveSequence ids drafts = .ok elements) :
    sequenceSymbols elements = Draft.sequenceSymbols drafts ∧
      ∀ e ∈ elements, IsResolved (fun name id => ids name = some id) .sequence e := by
  cases drafts with
  | nil =>
    rw [resolveSequence] at h
    cases h
    exact ⟨rfl, nofun⟩
  | cons d rest =>
    obtain ⟨e, es, he, hes, rfl⟩ := resolveSequence_cons h
    obtain ⟨hsymbols, hresolved⟩ := isResolved_of_resolve d he
    obtain ⟨hothers, hrest⟩ := isResolved_of_resolveSequence rest hes
    refine ⟨?_, List.forall_mem_cons.mpr ⟨hresolved, hrest⟩⟩
    rw [sequenceSymbols, Draft.sequenceSymbols, hsymbols, hothers]

theorem isResolved_of_resolveAlternatives (drafts : List (List Draft))
    {alternatives : List (List Element)} (h : resolveAlternatives ids drafts = .ok alternatives) :
    alternativesSymbols alternatives = Draft.alternativesSymbols drafts ∧
      ∀ s ∈ alternatives, ∀ e ∈ s,
        IsResolved (fun name id => ids name = some id) .sequence e := by
  cases drafts with
  | nil =>
    rw [resolveAlternatives] at h
    cases h
    exact ⟨rfl, nofun⟩
  | cons sequence rest =>
    obtain ⟨elements, others, helements, hothers, rfl⟩ := resolveAlternatives_cons h
    obtain ⟨hsymbols, hresolved⟩ := isResolved_of_resolveSequence sequence helements
    obtain ⟨hmore, hrest⟩ := isResolved_of_resolveAlternatives rest hothers
    refine ⟨?_, List.forall_mem_cons.mpr ⟨hresolved, hrest⟩⟩
    -- a bar is written behind a sequence unless it is the last
    cases rest with
    | nil =>
      rw [resolveAlternatives] at hothers
      cases hothers
      rw [alternativesSymbols, Draft.alternativesSymbols, hsymbols]
    | cons next rest =>
      obtain ⟨nextElements, others, _, _, rfl⟩ := resolveAlternatives_cons hothers
      rw [alternativesSymbols, Draft.alternativesSymbols, hsymbols, hmore]
      all_goals nofun

end

/-! ## What is refused -/

/-- The names that symbols refer to, in order. -/
def references (symbols : List Symbol) : List String := symbols.filterMap Symbol.reference?

/-- The brackets of a group refer to nothing. -/
theorem references_group (group : Draft.Group) (symbols : List Symbol) :
    references (group.opener :: (symbols ++ [group.closer])) = references symbols := by
  cases group <;> exact List.filterMap_append.trans (List.append_nil _)

mutual

theorem refusal?_resolve (d : Draft) :
    refusal? (resolve ids d) = (references d.symbols).find? fun name => (ids name).isNone := by
  cases d with
  | terminal text emits =>
    rw [resolve]
    cases emits <;> simp [Draft.symbols, references, Symbol.reference?]
  | rule name =>
    rw [resolve, Draft.symbols]
    show _ = [name].find? _
    rw [List.find?_singleton]
    cases ids name <;> rfl
  | repeated body =>
    rw [resolve, refusal?_map, refusal?_resolveAlternatives body, Draft.symbols]
    exact congrArg _ (references_group .repeated _).symm
  | optional body =>
    rw [resolve, refusal?_map, refusal?_resolveAlternatives body, Draft.symbols]
    exact congrArg _ (references_group .optional _).symm
  | notAhead body =>
    rw [resolve, refusal?_map, refusal?_resolveAlternatives body, Draft.symbols]
    exact congrArg _ (references_group .notAhead _).symm
  | number name | label name =>
    simp [resolve, Draft.symbols, references, Symbol.reference?]
  | run chars negated =>
    rw [resolve]
    cases negated <;> simp [Draft.symbols, references, Symbol.reference?]

theorem refusal?_resolveSequence (drafts : List Draft) :
    refusal? (resolveSequence ids drafts) =
      (references (Draft.sequenceSymbols drafts)).find? fun name => (ids name).isNone := by
  cases drafts with
  | nil =>
    rw [resolveSequence]
    rfl
  | cons d rest =>
    rw [resolveSequence, Draft.sequenceSymbols, references, List.filterMap_append,
      List.find?_append, ← references, ← references, ← refusal?_resolve d,
      ← refusal?_resolveSequence rest, ← refusal?_cons]
    cases resolve ids d <;> rfl

theorem refusal?_resolveAlternatives (drafts : List (List Draft)) :
    refusal? (resolveAlternatives ids drafts) =
      (references (Draft.alternativesSymbols drafts)).find? fun name => (ids name).isNone := by
  cases drafts with
  | nil =>
    rw [resolveAlternatives]
    rfl
  | cons sequence rest =>
    -- the bar between two alternatives refers to nothing
    have hbar : references (Draft.alternativesSymbols (sequence :: rest)) =
        references (Draft.sequenceSymbols sequence) ++
          references (Draft.alternativesSymbols rest) := by
      cases rest with
      | nil => simp [Draft.alternativesSymbols, references]
      | cons next rest =>
        rw [Draft.alternativesSymbols]
        · exact List.filterMap_append
        · nofun
    rw [resolveAlternatives, hbar, List.find?_append, ← refusal?_resolveSequence sequence,
      ← refusal?_resolveAlternatives rest, ← refusal?_cons]
    cases resolveSequence ids sequence <;> rfl

end

/-- A draft with the name of its rule and the names it refers to. -/
def RuleDraft.mentions (d : RuleDraft) : Part :=
  (d.name, references (Draft.alternativesSymbols d.alternatives))

/-- Rules are refused for the first reference that leads nowhere. -/
theorem refusal?_resolveRules (drafts : List RuleDraft) :
    refusal? (drafts.mapM (resolveRule ids)) =
      (drafts.map RuleDraft.mentions).findSome? fun part =>
        (part.2.find? fun name => (ids name).isNone).map (.undefinedRule part.1) := by
  rw [refusal?_mapM, List.findSome?_map]
  congr 1
  funext d
  rw [Function.comp_apply, RuleDraft.mentions, ← refusal?_resolveAlternatives, resolveRule]
  cases resolveAlternatives ids d.alternatives <;> rfl

end

/-! ## Names of rules -/

/-- The names of the rules. -/
def names (parts : List Part) : List String := parts.map Prod.fst

theorem repeatedName?_eq_none {seen names : List String} (hseen : seen.Nodup) :
    repeatedName? seen names = none ↔ (names ++ seen).Nodup := by
  induction names generalizing seen with
  | nil => simp [repeatedName?, hseen]
  | cons name rest ih =>
    rw [repeatedName?, List.contains_eq_mem, List.cons_append, List.nodup_cons, List.mem_append]
    by_cases hname : name ∈ seen
    · simp [hname]
    · have hmore : (name :: seen).Nodup := List.nodup_cons.mpr ⟨hname, hseen⟩
      rw [if_neg (by simpa using hname), ih hmore, List.perm_middle.nodup_iff, List.nodup_cons,
        List.mem_append]

/-- The name that is found repeats one of those before it, and these are distinct. -/
theorem repeatedName?_eq_some {seen names : List String} {name : String} (hseen : seen.Nodup) :
    repeatedName? seen names = some name ↔ ∃ front rest, names = front ++ name :: rest ∧
      (front ++ seen).Nodup ∧ name ∈ front ++ seen := by
  induction names generalizing seen with
  | nil => simp [repeatedName?]
  | cons first others ih =>
    rw [repeatedName?, List.contains_eq_mem]
    by_cases hfirst : first ∈ seen
    · rw [if_pos (by simpa using hfirst), Option.some.injEq]
      constructor
      · intro h
        exact ⟨[], others, by rw [h, List.nil_append], hseen, h ▸ hfirst⟩
      · intro h
        obtain ⟨front, rest, hsplit, hdistinct, _⟩ := h
        cases front with
        | nil => rw [(List.cons.inj hsplit).1]
        | cons x front =>
          -- the names in front are not among those seen, but the first one is
          obtain ⟨rfl, _⟩ := List.cons.inj hsplit
          rw [List.cons_append, List.nodup_cons, List.mem_append] at hdistinct
          exact absurd (.inr hfirst) hdistinct.1
    · -- a first name that is new is one of those in front of the name that is found
      have hmore : (first :: seen).Nodup := List.nodup_cons.mpr ⟨hfirst, hseen⟩
      rw [if_neg (by simpa using hfirst), ih hmore]
      constructor
      · intro h
        obtain ⟨front, rest, hsplit, hdistinct, hname⟩ := h
        refine ⟨first :: front, rest, by rw [hsplit, List.cons_append], ?_, ?_⟩
        · rwa [List.cons_append, ← List.perm_middle.nodup_iff]
        · rwa [List.cons_append, ← List.perm_middle.mem_iff]
      · intro h
        obtain ⟨front, rest, hsplit, hdistinct, hname⟩ := h
        cases front with
        | nil =>
          obtain ⟨rfl, _⟩ := List.cons.inj hsplit
          exact absurd hname hfirst
        | cons x front =>
          obtain ⟨rfl, hothers⟩ := List.cons.inj hsplit
          refine ⟨front, rest, hothers, ?_, ?_⟩
          · rwa [List.perm_middle.nodup_iff, ← List.cons_append]
          · rwa [List.perm_middle.mem_iff, ← List.cons_append]

/-- A name is found if it is there. -/
theorem isNone_findIdx? {names : List String} (name : String) :
    (names.findIdx? (· == name)).isNone = false ↔ name ∈ names := by
  rw [Option.isNone_eq_false_iff, List.findIdx?_isSome, List.any_beq', List.contains_eq_mem,
    decide_eq_true_iff]

/-- One of distinct names is found where it stands. -/
theorem findIdx?_eq_some {names : List String} (h : names.Nodup) {name : String} {id : Nat} :
    names.findIdx? (· == name) = some id ↔ names[id]? = some name := by
  rw [List.findIdx?_eq_some_iff_getElem, List.getElem?_eq_some_iff]
  simp only [beq_iff_eq]
  constructor
  · intro hfound
    obtain ⟨hid, hname, _⟩ := hfound
    exact ⟨hid, hname⟩
  · intro hstands
    obtain ⟨hid, hname⟩ := hstands
    refine ⟨hid, hname, ?_⟩
    intro j hj hsame
    have hindex := (List.Nodup.getElem_inj_iff h).mp (hsame.trans hname.symm)
    omega

/-! ## Closed grammars -/

/-- The names of the rules are distinct, the start is one of them and so is every name that a rule
    refers to. -/
structure IsClosed (start : String) (parts : List Part) : Prop where
  distinct : (names parts).Nodup
  start : start ∈ names parts
  defined : ∀ part ∈ parts, ∀ reference ∈ part.2, reference ∈ names parts

/-- The first reason why a grammar is not closed. -/
inductive IsFlaw (start : String) (parts : List Part) : GrammarError → Prop where
  -- the first name that repeats an earlier one
  | duplicateRule {front name rest} (hnames : names parts = front ++ name :: rest)
    (hfront : front.Nodup) (hname : name ∈ front) : IsFlaw start parts (.duplicateRule name)
  | missingStart (hdistinct : (names parts).Nodup) (hstart : start ∉ names parts) :
    IsFlaw start parts (.missingStart start)
  | undefinedRule {name reference} (hdistinct : (names parts).Nodup)
    (hstart : start ∈ names parts)
    (hfirst : IsFirstBad (· ∈ names parts) parts name reference) :
    IsFlaw start parts (.undefinedRule name reference)

/-- The names in front of a repeated name are distinct and have it. -/
theorem repeatedName?_nil_eq_some {names : List String} {name : String} :
    repeatedName? [] names = some name ↔
      ∃ front rest, names = front ++ name :: rest ∧ front.Nodup ∧ name ∈ front := by
  have hnil : ([] : List String).Nodup := .nil
  rw [repeatedName?_eq_some hnil]
  simp only [List.append_nil]

theorem names_mentions (drafts : List RuleDraft) :
    names (drafts.map RuleDraft.mentions) = drafts.map (·.name) :=
  List.map_map

/-- The rules of a draft lead where the names of rules stand. -/
theorem ofDrafts_eq (drafts : List RuleDraft) (start : String) :
    ofDrafts drafts start =
      match repeatedName? [] (names (drafts.map RuleDraft.mentions)) with
      | some name => .error (.duplicateRule name)
      | none =>
        match (names (drafts.map RuleDraft.mentions)).findIdx? (· == start) with
        | none => .error (.missingStart start)
        | some start =>
          (drafts.mapM (resolveRule fun name =>
            (names (drafts.map RuleDraft.mentions)).findIdx? (· == name))).map (⟨·, start⟩) := by
  rw [names_mentions]
  rfl

/-- What is reported of drafts is a flaw. -/
theorem isFlaw_of_ofDrafts {drafts : List RuleDraft} {start : String} {e : GrammarError}
    (h : ofDrafts drafts start = .error e) : IsFlaw start (drafts.map RuleDraft.mentions) e := by
  -- names, start and references are tested in this order, and a test is passed before the next
  rw [ofDrafts_eq] at h
  split at h
  · rename_i name hrepeated
    obtain ⟨front, rest, hnames, hfront, hname⟩ := repeatedName?_nil_eq_some.mp hrepeated
    cases h
    exact .duplicateRule hnames hfront hname
  · rename_i hrepeated
    have hdistinct : (names (drafts.map RuleDraft.mentions)).Nodup := by
      simpa using (repeatedName?_eq_none .nil).mp hrepeated
    split at h
    · rename_i hstart
      cases h
      refine .missingStart hdistinct ?_
      rw [← isNone_findIdx?, hstart]
      nofun
    · rename_i id hstart
      have hthere : start ∈ names (drafts.map RuleDraft.mentions) := by
        rw [← isNone_findIdx?, hstart]
        rfl
      rw [← refusal?_eq_some, refusal?_map, refusal?_resolveRules,
        find_parts_eq_some _ isNone_findIdx?] at h
      obtain ⟨name, reference, hfirst, rfl⟩ := h
      exact .undefinedRule hdistinct hthere hfirst

/-- A flaw of drafts is reported. -/
theorem IsFlaw.ofDrafts_eq_error {drafts : List RuleDraft} {start : String} {e : GrammarError}
    (h : IsFlaw start (drafts.map RuleDraft.mentions) e) : ofDrafts drafts start = .error e := by
  rw [ofDrafts_eq]
  have hnone : (names (drafts.map RuleDraft.mentions)).Nodup →
      repeatedName? [] (names (drafts.map RuleDraft.mentions)) = none := by
    intro hdistinct
    rw [repeatedName?_eq_none .nil, List.append_nil]
    exact hdistinct
  cases h with
  | duplicateRule hnames hfront hname =>
    rw [repeatedName?_nil_eq_some.mpr ⟨_, _, hnames, hfront, hname⟩]
  | missingStart hdistinct hstart =>
    rw [← isNone_findIdx?, Bool.not_eq_false, Option.isNone_iff_eq_none] at hstart
    rw [hnone hdistinct, hstart]
  | undefinedRule hdistinct hstart hfirst =>
    rw [← isNone_findIdx?, Option.isNone_eq_false_iff, Option.isSome_iff_exists] at hstart
    obtain ⟨id, hid⟩ := hstart
    rw [hnone hdistinct, hid, ← refusal?_eq_some, refusal?_map, refusal?_resolveRules,
      find_parts_eq_some _ isNone_findIdx?]
    exact ⟨_, _, hfirst, rfl⟩

/-- What is closed has no flaw. -/
theorem IsFlaw.not_isClosed {start : String} {parts : List Part} {e : GrammarError}
    (h : IsFlaw start parts e) : ¬ IsClosed start parts := by
  intro hclosed
  cases h with
  | duplicateRule hnames hfront hname =>
    have hdistinct := hclosed.distinct
    rw [hnames, List.nodup_append] at hdistinct
    exact hdistinct.2.2 _ hname _ List.mem_cons_self rfl
  | missingStart _ hstart => exact hstart hclosed.start
  | undefinedRule _ _ hfirst =>
    obtain ⟨before, after, front, rest, hparts, _, _, hreference⟩ := hfirst
    have hdefined := hclosed.defined
    rw [hparts, List.forall_mem_append, List.forall_mem_cons, List.forall_mem_append,
      List.forall_mem_cons, ← hparts] at hdefined
    exact hreference hdefined.2.1.2.1

/-- What has no flaw is closed. -/
theorem isClosed_of_not_isFlaw {start : String} {parts : List Part}
    (h : ∀ e, ¬ IsFlaw start parts e) : IsClosed start parts := by
  -- each kind of flaw supposes that those before it are absent, so they are excluded in order
  have hdistinct : (names parts).Nodup := by
    cases hrepeated : repeatedName? [] (names parts) with
    | none => simpa using (repeatedName?_eq_none .nil).mp hrepeated
    | some name =>
      obtain ⟨front, rest, hnames, hfront, hname⟩ := repeatedName?_nil_eq_some.mp hrepeated
      exact absurd (.duplicateRule hnames hfront hname) (h _)
  have hstart : start ∈ names parts := by
    apply Classical.byContradiction
    intro hmissing
    exact h _ (.missingStart hdistinct hmissing)
  refine ⟨hdistinct, hstart, ?_⟩
  rw [← find_parts_eq_none .undefinedRule isNone_findIdx?, Option.eq_none_iff_forall_ne_some]
  intro e hfound
  obtain ⟨name, reference, hfirst, rfl⟩ := (find_parts_eq_some _ isNone_findIdx?).mp hfound
  exact h _ (.undefinedRule hdistinct hstart hfirst)

/-- Drafts that are closed become a grammar. -/
theorem exists_ofDrafts_iff {drafts : List RuleDraft} {start : String} :
    (∃ g, ofDrafts drafts start = .ok g) ↔ IsClosed start (drafts.map RuleDraft.mentions) := by
  constructor
  · intro h
    obtain ⟨g, hg⟩ := h
    apply isClosed_of_not_isFlaw
    intro e hflaw
    rw [hflaw.ofDrafts_eq_error] at hg
    cases hg
  · intro hclosed
    cases hresult : ofDrafts drafts start with
    | ok g => exact ⟨g, rfl⟩
    | error e => exact absurd hclosed (isFlaw_of_ofDrafts hresult).not_isClosed

/-! ## Grammars of texts -/

/-- The name of a rule and the names that its text refers to, in order. -/
def RuleText.mentions (r : RuleText) : Part := (r.name, references r.bodySymbols)

/-- The text is cut into symbols and these into rules, each of which is one. -/
def Reads (text : String) (rules : List RuleText) : Prop :=
  ∃ placed, Symbol.ofText? text.toList = .ok placed ∧ IsCut placed rules ∧
    ∀ r ∈ rules, IsBody r.bodySymbols

/-- The rule with the index has the name. -/
def Leads (g : Grammar) (name : String) (id : Nat) : Prop :=
  ∃ h : id < g.rules.length, g.rules[id].name = name

/-- The grammar has the rules of the text in their order, with what is written in each.  A name
    leads to an index exactly if the index leads to the name; all references do. -/
structure IsGrammarOf (start : String) (rules : List RuleText) (g : Grammar) : Prop where
  content : g.rules.map Rule.content = rules.map RuleText.content
  indexed : ∀ name id, g.ruleId? name = some id ↔ g.Leads name id
  start : g.Leads start g.start
  resolved : ∀ r ∈ g.rules, ∀ s ∈ r.alternatives, ∀ e ∈ s, IsResolved g.Leads .sequence e

/-- The name of a draft and the symbols that it is written with. -/
def RuleDraft.written (d : RuleDraft) : String × List Symbol :=
  (d.name, Draft.alternativesSymbols d.alternatives)

/-- Rules that are read have bodies, and are drafted as they are written. -/
theorem written_of_read {rules : List RuleText} {drafts : List RuleDraft}
    (h : rules.mapM RuleText.read = .ok drafts) :
    (∀ r ∈ rules, IsBody r.bodySymbols) ∧
      drafts.map RuleDraft.written = rules.map RuleText.content := by
  induction rules generalizing drafts with
  | nil =>
    cases h
    exact ⟨nofun, rfl⟩
  | cons r rules ih =>
    obtain ⟨d, rest, hread, hrest, rfl⟩ := mapM_cons_ok.mp h
    obtain ⟨hbody, hname, _, hsymbols⟩ := RuleText.read_ok hread
    obtain ⟨hbodies, hcontent⟩ := ih hrest
    refine ⟨List.forall_mem_cons.mpr ⟨hbody, hbodies⟩, ?_⟩
    have hfirst : d.written = r.content := Prod.ext hname hsymbols
    rw [List.map_cons, List.map_cons, hfirst, hcontent]

/-- Rules with bodies are read. -/
theorem exists_read {rules : List RuleText} (h : ∀ r ∈ rules, IsBody r.bodySymbols) :
    ∃ drafts, rules.mapM RuleText.read = .ok drafts := by
  induction rules with
  | nil => exact ⟨[], rfl⟩
  | cons r rules ih =>
    obtain ⟨hbody, hbodies⟩ := List.forall_mem_cons.mp h
    obtain ⟨d, hread⟩ := r.isReadExactly.accepts.mpr hbody
    obtain ⟨rest, hrest⟩ := ih hbodies
    exact ⟨d :: rest, mapM_cons_ok.mpr ⟨d, rest, hread, hrest, rfl⟩⟩

/-- Drafts come from a text that is read, and are what is written there. -/
theorem reads_of_drafts {text : String} {drafts : List RuleDraft} (h : drafts? text = .ok drafts) :
    ∃ rules, Reads text rules ∧ drafts.map RuleDraft.written = rules.map RuleText.content := by
  unfold drafts? at h
  split at h
  · cases h
  · rename_i placed hplaced
    obtain ⟨rest, hrest, _, hcut⟩ := cut_isCut placed
    unfold RuleDraft.ofSymbols? at h
    split at h
    · cases h
    · rename_i rules hrules
      rw [hrules, List.nil_append] at hrest
      rw [hrules, ← hrest] at hcut
      cases hread : rules.mapM RuleText.read with
      | error e =>
        rw [hread] at h
        cases h
      | ok drafts' =>
        rw [hread] at h
        cases h
        obtain ⟨hbodies, hcontent⟩ := written_of_read hread
        exact ⟨rules, ⟨placed, hplaced, hcut, hbodies⟩, hcontent⟩

/-- A text that is read has drafts, and they are what is written there. -/
theorem Reads.exists_drafts {text : String} {rules : List RuleText} (h : Reads text rules) :
    ∃ drafts, drafts? text = .ok drafts ∧
      drafts.map RuleDraft.written = rules.map RuleText.content := by
  obtain ⟨placed, hplaced, hcut, hbodies⟩ := h
  obtain ⟨drafts, hread⟩ := exists_read hbodies
  refine ⟨drafts, ?_, (written_of_read hread).2⟩
  unfold drafts? RuleDraft.ofSymbols?
  rw [hplaced]
  simp only [hcut.cut_eq, hread]
  rfl

/-- What is written alike mentions the same names. -/
theorem mentions_of_written {drafts : List RuleDraft} {rules : List RuleText}
    (h : drafts.map RuleDraft.written = rules.map RuleText.content) :
    drafts.map RuleDraft.mentions = rules.map RuleText.mentions := by
  have hmentions := congrArg (List.map fun content => (content.1, references content.2)) h
  rwa [List.map_map, List.map_map] at hmentions

/-- The rules that drafts are resolved to are what is written in the drafts. -/
theorem content_of_resolveRules {ids : String → Option Nat} {drafts : List RuleDraft}
    {rules : List Rule} (h : drafts.mapM (resolveRule ids) = .ok rules) :
    rules.map Rule.content = drafts.map RuleDraft.written ∧
      ∀ r ∈ rules, ∀ s ∈ r.alternatives, ∀ e ∈ s,
        IsResolved (fun name id => ids name = some id) .sequence e := by
  induction drafts generalizing rules with
  | nil =>
    cases h
    exact ⟨rfl, nofun⟩
  | cons d drafts ih =>
    obtain ⟨r, rest, hrule, hrest, rfl⟩ := mapM_cons_ok.mp h
    obtain ⟨hcontent, hresolved⟩ := ih hrest
    unfold resolveRule at hrule
    split at hrule
    · rename_i alternatives hbody
      cases hrule
      obtain ⟨hsymbols, hbody⟩ := isResolved_of_resolveAlternatives d.alternatives hbody
      refine ⟨?_, List.forall_mem_cons.mpr ⟨hbody, hresolved⟩⟩
      have hfirst : Rule.content ⟨d.name, alternatives⟩ = d.written := Prod.ext rfl hsymbols
      rw [List.map_cons, List.map_cons, hfirst, hcontent]
    · cases hrule

/-- A name stands where the rules have it. -/
theorem leads_iff {g : Grammar} {name : String} {id : Nat} :
    g.Leads name id ↔ (g.rules.map (·.name))[id]? = some name := by
  rw [List.getElem?_map, Leads, Option.map_eq_some_iff]
  simp only [List.getElem?_eq_some_iff]
  constructor
  · intro h
    obtain ⟨hid, hname⟩ := h
    exact ⟨g.rules[id], ⟨hid, rfl⟩, hname⟩
  · intro h
    obtain ⟨r, ⟨hid, hr⟩, hname⟩ := h
    exact ⟨hid, by rw [hr, hname]⟩

/-- Drafts become a grammar of the text that they are read from. -/
theorem isGrammarOf_of_ofDrafts {drafts : List RuleDraft} {rules : List RuleText} {start : String}
    {g : Grammar} (h : ofDrafts drafts start = .ok g)
    (hwritten : drafts.map RuleDraft.written = rules.map RuleText.content) :
    g.IsGrammarOf start rules := by
  have hdistinct := (exists_ofDrafts_iff.mp ⟨g, h⟩).distinct
  rw [ofDrafts_eq] at h
  split at h
  · cases h
  · split at h
    · cases h
    · rename_i id hstart
      obtain ⟨resolved, hresolved, rfl⟩ := ok_of_map h
      obtain ⟨hcontent, hbodies⟩ := content_of_resolveRules hresolved
      have hnames : resolved.map (·.name) = names (drafts.map RuleDraft.mentions) := by
        have hfirst := congrArg (List.map Prod.fst) hcontent
        rw [List.map_map, List.map_map] at hfirst
        rw [names_mentions]
        exact hfirst
      -- as names are distinct, a name is found where it stands and nowhere else
      have hleads : ∀ name id', (names (drafts.map RuleDraft.mentions)).findIdx? (· == name) =
          some id' ↔ Leads ⟨resolved, id⟩ name id' := by
        intro name id'
        rw [findIdx?_eq_some hdistinct, leads_iff, hnames]
      refine ⟨hcontent.trans hwritten, ?_, (hleads _ _).mp hstart, ?_⟩
      · intro name id'
        rw [← hleads, ← hnames, List.findIdx?_map]
        rfl
      · intro r hr s hs e he
        exact (hbodies r hr s hs e he).imp fun name id' => (hleads name id').mp

/-- A text that is read is compiled from its drafts. -/
theorem compile_of_drafts {text start : String} {drafts : List RuleDraft}
    (h : drafts? text = .ok drafts) : compile text start = ofDrafts drafts start := by
  rw [compile, h]
  rfl

/-- A text without drafts has a stray character or a rule that is none. -/
theorem drafts?_eq_error {text : String} {e : GrammarError} :
    drafts? text = .error e ↔
      (∃ stray, Symbol.ofText? text.toList = .error stray ∧
        e = .unrecognised stray.text stray.line) ∨
      ∃ placed fault, Symbol.ofText? text.toList = .ok placed ∧
        RuleDraft.ofSymbols? placed = .error fault ∧ e = .malformedRule fault := by
  unfold drafts?
  cases Symbol.ofText? text.toList with
  | error stray => simp [eq_comm]
  | ok placed =>
    cases hread : RuleDraft.ofSymbols? placed with
    | error fault => simp [Except.mapError, hread, eq_comm]
    | ok drafts => simp [Except.mapError, hread]

section
variable {text start : String}

/-- A text becomes a grammar if it is read and its rules are closed. -/
theorem exists_compile_iff :
    (∃ g, compile text start = .ok g) ↔
      ∃ rules, Reads text rules ∧ IsClosed start (rules.map RuleText.mentions) := by
  constructor
  · intro h
    obtain ⟨g, hg⟩ := h
    cases hdrafts : drafts? text with
    | error fault =>
      rw [compile, hdrafts] at hg
      cases hg
    | ok drafts =>
      obtain ⟨rules, hreads, hwritten⟩ := reads_of_drafts hdrafts
      rw [compile_of_drafts hdrafts] at hg
      refine ⟨rules, hreads, ?_⟩
      rw [← mentions_of_written hwritten]
      exact exists_ofDrafts_iff.mp ⟨g, hg⟩
  · intro h
    obtain ⟨rules, hreads, hclosed⟩ := h
    obtain ⟨drafts, hdrafts, hwritten⟩ := hreads.exists_drafts
    rw [← mentions_of_written hwritten] at hclosed
    rw [compile_of_drafts hdrafts]
    exact exists_ofDrafts_iff.mpr hclosed

/-- What is reported of a text is why it is not read, or a flaw of its rules. -/
theorem compile_eq_error {e : GrammarError} :
    compile text start = .error e ↔ drafts? text = .error e ∨
      ∃ rules, Reads text rules ∧ IsFlaw start (rules.map RuleText.mentions) e := by
  constructor
  · intro h
    cases hdrafts : drafts? text with
    | error fault =>
      rw [compile, hdrafts] at h
      cases h
      exact .inl rfl
    | ok drafts =>
      obtain ⟨rules, hreads, hwritten⟩ := reads_of_drafts hdrafts
      rw [compile_of_drafts hdrafts] at h
      refine .inr ⟨rules, hreads, ?_⟩
      rw [← mentions_of_written hwritten]
      exact isFlaw_of_ofDrafts h
  · intro h
    rcases h with hunread | ⟨rules, hreads, hflaw⟩
    · rw [compile, hunread]
      rfl
    · obtain ⟨drafts, hdrafts, hwritten⟩ := hreads.exists_drafts
      rw [← mentions_of_written hwritten] at hflaw
      rw [compile_of_drafts hdrafts]
      exact hflaw.ofDrafts_eq_error

/-- The grammar that a text becomes is that of the text. -/
theorem isGrammarOf_of_compile {g : Grammar} (h : compile text start = .ok g) :
    ∃ rules, Reads text rules ∧ g.IsGrammarOf start rules := by
  cases hdrafts : drafts? text with
  | error fault =>
    rw [compile, hdrafts] at h
    cases h
  | ok drafts =>
    obtain ⟨rules, hreads, hwritten⟩ := reads_of_drafts hdrafts
    rw [compile_of_drafts hdrafts] at h
    exact ⟨rules, hreads, isGrammarOf_of_ofDrafts h hwritten⟩

end

/-- Compiling is exact.  A text becomes a grammar if it is read and its rules are closed, and
    otherwise its first flaw is reported; and the grammar is that of the text. -/
theorem compiles_exactly (text start : String) :
    ((∃ g, compile text start = .ok g) ↔
      ∃ rules, Reads text rules ∧ IsClosed start (rules.map RuleText.mentions)) ∧
    (∀ e, compile text start = .error e ↔
      (∃ stray, Symbol.ofText? text.toList = .error stray ∧
        e = .unrecognised stray.text stray.line) ∨
      (∃ placed fault, Symbol.ofText? text.toList = .ok placed ∧
        RuleDraft.ofSymbols? placed = .error fault ∧ e = .malformedRule fault) ∨
      ∃ rules, Reads text rules ∧ IsFlaw start (rules.map RuleText.mentions) e) ∧
    ∀ g, compile text start = .ok g → ∃ rules, Reads text rules ∧ g.IsGrammarOf start rules := by
  refine ⟨exists_compile_iff, fun e => ?_, fun g => isGrammarOf_of_compile⟩
  rw [compile_eq_error, drafts?_eq_error, or_assoc]

end Grammar
end Compositing
