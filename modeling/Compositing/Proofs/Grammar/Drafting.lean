import Compositing.Grammar.Compile

/-! # Reading keeps every symbol

    What was read from symbols can be written with these symbols again:
    reading sorts them into rules, alternatives and groups and drops none.
    And it looks at symbols only, so that symbols that stand elsewhere are
    read alike. -/

namespace Compositing.Grammar

/-! ## Symbols of drafts -/

namespace Draft

mutual

/-- The symbols that an element is written with. -/
def symbols : Draft → List Symbol
  | .terminal text true => [.terminal text]
  | .terminal text false => [.silentTerminal text]
  | .rule name => [.rule name]
  | .repeated body => .repeatOpen :: (alternativesSymbols body ++ [.repeatClose])
  | .optional body => .optionalOpen :: (alternativesSymbols body ++ [.optionalClose])
  | .notAhead body => .lookaheadOpen :: (alternativesSymbols body ++ [.groupClose])
  | .number name => [.number name]
  | .label name => [.label name]
  | .run chars true => [.excludeClass chars]
  | .run chars false => [.includeClass chars]

/-- The symbols of a sequence. -/
def sequenceSymbols : List Draft → List Symbol
  | [] => []
  | element :: rest => symbols element ++ sequenceSymbols rest

/-- The symbols of alternatives, with a bar between two. -/
def alternativesSymbols : List (List Draft) → List Symbol
  | [] => []
  | [sequence] => sequenceSymbols sequence
  | sequence :: rest => sequenceSymbols sequence ++ .or :: alternativesSymbols rest

end

theorem sequenceSymbols_append (before after : List Draft) :
    sequenceSymbols (before ++ after) = sequenceSymbols before ++ sequenceSymbols after := by
  induction before with
  | nil => rfl
  | cons element before ih => simp only [List.cons_append, sequenceSymbols, ih, List.append_assoc]

theorem alternativesSymbols_append (before : List (List Draft)) (last : List Draft) :
    alternativesSymbols (before ++ [last]) =
      before.flatMap (fun sequence => sequenceSymbols sequence ++ [.or]) ++
        sequenceSymbols last := by
  induction before with
  | nil => rfl
  | cons sequence before ih =>
    have hrest : before ++ [last] ≠ [] := by simp
    rw [List.cons_append, alternativesSymbols, ih, List.flatMap_cons]
    · simp only [List.append_assoc, List.cons_append, List.nil_append]
    · exact hrest

namespace Group

/-- The symbol that opens a group. -/
def opener : Group → Symbol
  | .repeated => .repeatOpen
  | .optional => .optionalOpen
  | .notAhead => .lookaheadOpen

/-- The symbol that closes a group. -/
def closer : Group → Symbol
  | .repeated => .repeatClose
  | .optional => .optionalClose
  | .notAhead => .groupClose

theorem opener_of_opened {s : Symbol} {group : Group} (h : opened? s = some group) :
    group.opener = s := by
  cases s <;> cases h <;> rfl

theorem closer_of_closed {s : Symbol} {group : Group} (h : closed? s = some group) :
    group.closer = s := by
  cases s <;> cases h <;> rfl

theorem symbols_wrap (body : List (List Draft)) (group : Group) :
    (group.wrap body).symbols = group.opener :: (alternativesSymbols body ++ [group.closer]) := by
  cases group <;> simp only [wrap, symbols, opener, closer]

end Group

theorem symbols_of_ofSymbol {s : Symbol} {element : Draft} (h : ofSymbol? s = some element) :
    element.symbols = [s] := by
  cases s <;> cases h <;> simp only [symbols]

/-! ## Symbols under way -/

/-- The symbols of a body under way. -/
def Body.symbols (b : Body) : List Symbol :=
  b.done.reverse.flatMap (fun sequence => sequenceSymbols sequence ++ [.or]) ++
    sequenceSymbols b.current.reverse

theorem Body.symbols_push (element : Draft) (b : Body) :
    (b.push element).symbols = b.symbols ++ element.symbols := by
  simp only [symbols, push, List.reverse_cons, sequenceSymbols_append, List.append_assoc]
  simp only [sequenceSymbols, List.append_nil]

theorem Body.symbols_bar (b : Body) : b.bar.symbols = b.symbols ++ [.or] := by
  simp [symbols, bar, sequenceSymbols]

theorem Body.symbols_alternatives (b : Body) : alternativesSymbols b.alternatives = b.symbols := by
  rw [alternatives, bar, List.reverse_cons, alternativesSymbols_append]
  rfl

namespace Reading

/-- The symbols read so far. -/
def symbols (r : Reading) : List Symbol :=
  r.outer.reverse.flatMap (fun (group, around) => around.symbols ++ [group.opener]) ++
    r.inner.symbols

/-- A symbol that is read comes after those read before. -/
theorem symbols_step {r r' : Reading} {s : Symbol} (h : r.step? s = some r') :
    r'.symbols = r.symbols ++ [s] := by
  unfold step? at h
  split at h
  · rename_i element helement
    cases h
    simp only [symbols, Body.symbols_push, symbols_of_ofSymbol helement, List.append_assoc]
  · split at h
    · rename_i group hgroup
      cases h
      simp [symbols, Group.opener_of_opened hgroup, Body.symbols, Body.empty, sequenceSymbols]
    · split at h
      · cases h
      · split at h
        · rename_i hor
          cases h
          simp only [symbols, Body.symbols_bar, hor, List.append_assoc]
        · split at h
          · rename_i group around outer houter
            split at h
            · rename_i hclosed
              cases h
              -- the body of the group is wrapped up and takes its place in the body around it
              simp [symbols, houter, Body.symbols_push, Group.symbols_wrap,
                Body.symbols_alternatives, Group.closer_of_closed hclosed]
            · cases h
          · cases h

theorem symbols_run {r r' : Reading} {placed : List PlacedSymbol} (h : r.run placed = .ok r') :
    r'.symbols = r.symbols ++ placed.map (·.symbol) := by
  induction placed generalizing r with
  | nil =>
    cases h
    rw [List.map_nil, List.append_nil]
  | cons s rest ih =>
    unfold run at h
    split at h
    · rename_i r₁ hstep
      rw [ih h, symbols_step hstep, List.append_assoc]
      rfl
    · cases h

/-- Only symbols are looked at. -/
theorem run_congr {r r' : Reading} {placed placed' : List PlacedSymbol}
    (h : r.run placed = .ok r') (hsymbols : placed'.map (·.symbol) = placed.map (·.symbol)) :
    r.run placed' = .ok r' := by
  induction placed generalizing r placed' with
  | nil =>
    rw [List.map_nil, List.map_eq_nil_iff] at hsymbols
    rw [hsymbols]
    exact h
  | cons s rest ih =>
    obtain ⟨s', rest', rfl, hs, hrest⟩ := List.map_eq_cons_iff.mp hsymbols
    unfold run at h ⊢
    rw [hs]
    split at h
    · rename_i r₁ hstep
      rw [hstep]
      exact ih h hrest
    · cases h

end Reading
end Draft

/-! ## Lists that are taken item by item -/

/-- The items of a list that are all granted, the first one apart. -/
theorem mapM_cons_ok {α β ε : Type} {f : α → Except ε β} {x : α} {xs : List α} {ys : List β} :
    (x :: xs).mapM f = .ok ys ↔ ∃ y rest, f x = .ok y ∧ xs.mapM f = .ok rest ∧ ys = y :: rest := by
  rw [List.mapM_cons]
  cases hx : f x with
  | error error => simp [bind, Except.bind]
  | ok y =>
    cases hxs : xs.mapM f with
    | error error => simp [bind, Except.bind]
    | ok rest => simp [bind, Except.bind, pure, Except.pure, eq_comm]

/-! ## Rules -/

/-- The symbols that a rule is written with. -/
def RuleDraft.symbols (d : RuleDraft) : List Symbol :=
  .rule d.name :: .define :: Draft.alternativesSymbols d.alternatives

/-- What a rule says, wherever it stands. -/
def RuleDraft.content (d : RuleDraft) : String × List (List Draft) := (d.name, d.alternatives)

namespace RuleText

/-- The name and the symbols of a rule, wherever they stand. -/
def content (r : RuleText) : String × List Symbol := (r.name, r.body.map (·.symbol))

/-- The symbols of a rule with its header. -/
def symbols (r : RuleText) : List Symbol := .rule r.name :: .define :: r.body.map (·.symbol)

/-- A definition belongs to the header before it. -/
theorem cut_define {s : PlacedSymbol} {rest : List PlacedSymbol} (h : s.symbol = .define) :
    cut (s :: rest) = (s :: (cut rest).1, (cut rest).2) := by
  simp only [cut, h]

/-- Cutting into rules drops no symbol. -/
theorem symbols_cut (placed : List PlacedSymbol) :
    placed.map (·.symbol) =
      (cut placed).1.map (·.symbol) ++ (cut placed).2.flatMap RuleText.symbols := by
  induction placed with
  | nil => rfl
  | cons s rest ih =>
    simp only [cut]
    split
    · rename_i name hs hdefine
      cases rest with
      | nil => cases hdefine
      | cons t rest =>
        have ht : t.symbol = .define := Option.some.inj hdefine
        rw [cut_define ht] at ih ⊢
        simp only [List.map_cons, hs, ih]
        simp [symbols, ht]
    · simp only [List.map_cons, ih, List.cons_append]

/-- Rules that differ only in where they stand are cut alike. -/
theorem cut_congr {placed placed' : List PlacedSymbol}
    (h : placed'.map (·.symbol) = placed.map (·.symbol)) :
    (cut placed').1.map (·.symbol) = (cut placed).1.map (·.symbol) ∧
      (cut placed').2.map content = (cut placed).2.map content := by
  induction placed generalizing placed' with
  | nil =>
    rw [List.map_nil, List.map_eq_nil_iff] at h
    rw [h]
    exact ⟨rfl, rfl⟩
  | cons s rest ih =>
    obtain ⟨s', rest', rfl, hs, hrest⟩ := List.map_eq_cons_iff.mp h
    obtain ⟨hleading, hrules⟩ := ih hrest
    have hhead : rest'.head?.map PlacedSymbol.symbol = rest.head?.map PlacedSymbol.symbol := by
      rw [← List.head?_map, ← List.head?_map, hrest]
    simp only [cut, hs, hhead]
    split
    · refine ⟨rfl, ?_⟩
      simp only [List.map_cons, hrules, content, List.map_drop, hleading]
    · exact ⟨by rw [List.map_cons, List.map_cons, hleading, hs], hrules⟩

theorem symbols_read {r : RuleText} {d : RuleDraft} (h : r.read = .ok d) :
    d.symbols = r.symbols := by
  unfold read at h
  split at h
  · cases h
  · split at h
    · cases h
    · rename_i reading hrun
      split at h
      · rename_i alternatives hfinish
        cases h
        unfold Draft.Reading.finish? at hfinish
        split at hfinish
        · rename_i hends
          cases hfinish
          have hsymbols := Draft.Reading.symbols_run hrun
          have houter : reading.outer = [] := by simp_all
          simp only [Draft.Reading.symbols, houter] at hsymbols
          simp only [RuleDraft.symbols, symbols, Draft.Body.symbols_alternatives]
          simpa [Draft.Reading.start, Draft.Body.symbols, Draft.Body.empty,
            Draft.sequenceSymbols] using hsymbols
        · cases hfinish
      · cases h

/-- Rules that differ only in where they stand are read alike. -/
theorem read_congr {r r' : RuleText} {d : RuleDraft} (h : r.read = .ok d)
    (hcontent : r'.content = r.content) : ∃ d', r'.read = .ok d' ∧ d'.content = d.content := by
  obtain ⟨hname, hbody⟩ := Prod.mk.inj hcontent
  unfold read at h ⊢
  split at h
  · cases h
  · rename_i hempty
    have hempty' : ¬ r'.body.isEmpty = true := by
      intro hnil
      rw [List.isEmpty_iff.mp hnil, List.map_nil, eq_comm, List.map_eq_nil_iff] at hbody
      rw [hbody] at hempty
      exact hempty rfl
    rw [if_neg hempty']
    split at h
    · cases h
    · rename_i reading hrun
      rw [Draft.Reading.run_congr hrun hbody]
      split at h
      · rename_i alternatives hfinish
        cases h
        simp only [hfinish]
        exact ⟨_, rfl, by rw [RuleDraft.content, hname]; rfl⟩
      · cases h

end RuleText

/-! ## Grammars -/

section
variable {placed placed' : List PlacedSymbol} {drafts : List RuleDraft}

theorem symbols_readAll {rules : List RuleText} (h : rules.mapM RuleText.read = .ok drafts) :
    drafts.flatMap RuleDraft.symbols = rules.flatMap RuleText.symbols := by
  induction rules generalizing drafts with
  | nil =>
    cases h
    rfl
  | cons r rules ih =>
    obtain ⟨d, rest, hd, hrest, rfl⟩ := mapM_cons_ok.mp h
    rw [List.flatMap_cons, List.flatMap_cons, RuleText.symbols_read hd, ih hrest]

theorem readAll_congr {rules rules' : List RuleText} (h : rules.mapM RuleText.read = .ok drafts)
    (hcontent : rules'.map RuleText.content = rules.map RuleText.content) :
    ∃ drafts', rules'.mapM RuleText.read = .ok drafts' ∧
      drafts'.map RuleDraft.content = drafts.map RuleDraft.content := by
  induction rules generalizing rules' drafts with
  | nil =>
    rw [List.map_nil, List.map_eq_nil_iff] at hcontent
    rw [hcontent]
    exact ⟨drafts, h, rfl⟩
  | cons r rules ih =>
    obtain ⟨d, rest, hd, hrest, rfl⟩ := mapM_cons_ok.mp h
    obtain ⟨r', rules', rfl, hr, hrules⟩ := List.map_eq_cons_iff.mp hcontent
    obtain ⟨d', hd', hcontent'⟩ := RuleText.read_congr hd hr
    obtain ⟨rest', hrest', hrestContent⟩ := ih hrest hrules
    refine ⟨d' :: rest', mapM_cons_ok.mpr ⟨d', rest', hd', hrest', rfl⟩, ?_⟩
    rw [List.map_cons, List.map_cons, hcontent', hrestContent]

/-- The rules of symbols are written with these symbols. -/
theorem symbols_ofSymbols (h : RuleDraft.ofSymbols? placed = .ok drafts) :
    placed.map (·.symbol) = drafts.flatMap RuleDraft.symbols := by
  have hcut := RuleText.symbols_cut placed
  unfold RuleDraft.ofSymbols? at h
  generalize RuleText.cut placed = cut at h hcut
  obtain ⟨_ | ⟨stray, leading⟩, rules⟩ := cut
  · rw [hcut, symbols_readAll h]
    rfl
  · cases h

/-- Symbols that stand elsewhere make the same rules. -/
theorem ofSymbols_congr (h : RuleDraft.ofSymbols? placed = .ok drafts)
    (hsymbols : placed'.map (·.symbol) = placed.map (·.symbol)) :
    ∃ drafts', RuleDraft.ofSymbols? placed' = .ok drafts' ∧
      drafts'.map RuleDraft.content = drafts.map RuleDraft.content := by
  obtain ⟨hleading, hrules⟩ := RuleText.cut_congr hsymbols
  unfold RuleDraft.ofSymbols? at h ⊢
  generalize RuleText.cut placed = here at h hleading hrules
  generalize RuleText.cut placed' = there at hleading hrules ⊢
  obtain ⟨_ | ⟨stray, leading⟩, rules⟩ := here
  · obtain ⟨leading', rules'⟩ := there
    obtain rfl : leading' = [] := List.map_eq_nil_iff.mp hleading
    exact readAll_congr h hrules
  · cases h

/-! ## References -/

theorem resolveRule_congr {ids : String → Option Nat} {d d' : RuleDraft}
    (h : d'.content = d.content) : resolveRule ids d' = resolveRule ids d := by
  obtain ⟨hname, halternatives⟩ := Prod.mk.inj h
  simp only [resolveRule, hname, halternatives]

theorem resolveAll_congr {ids : String → Option Nat} {drafts drafts' : List RuleDraft}
    (h : drafts'.map RuleDraft.content = drafts.map RuleDraft.content) :
    drafts'.mapM (resolveRule ids) = drafts.mapM (resolveRule ids) := by
  induction drafts generalizing drafts' with
  | nil =>
    rw [List.map_nil, List.map_eq_nil_iff] at h
    rw [h]
  | cons d drafts ih =>
    obtain ⟨d', drafts', rfl, hd, hrest⟩ := List.map_eq_cons_iff.mp h
    rw [List.mapM_cons, List.mapM_cons, resolveRule_congr hd, ih hrest]

/-- Rules that differ only in where they stand make the same grammar. -/
theorem ofDrafts_congr {drafts' : List RuleDraft}
    (h : drafts'.map RuleDraft.content = drafts.map RuleDraft.content) (start : String) :
    ofDrafts drafts' start = ofDrafts drafts start := by
  have hnames : drafts'.map (·.name) = drafts.map (·.name) := by
    have hfirst := congrArg (List.map Prod.fst) h
    rwa [List.map_map, List.map_map] at hfirst
  simp only [ofDrafts, hnames, resolveAll_congr h]

end
end Compositing.Grammar
