import Compositing.Proofs.Recognition.Lasting
import Compositing.Proofs.Script.Parsing

/-! # Statements that last

    A statement of a script that was matched is matched alike when the text
    goes on, for what was tried before it in vain began with another keyword.
    Two keywords spoil this: `target_output` and `material_scheme` go on where
    `target` and `material` end.  If nothing but white space and comments is
    left behind one of them, a target or a material was read in its place that
    takes the slashes of the comment for its label, and what the text goes on
    with may turn it into what it was meant to be. -/

namespace Compositing

/-! ## Keywords that are found -/

namespace Keyword
variable {caseSensitive : Bool} {k k' : Keyword} {p : Position}

/-- The keyword is found at the position, after white space and comments. -/
def FoundAt (caseSensitive : Bool) (k : Keyword) (p : Position) : Prop :=
  (Lexeme.afterWord? caseSensitive k.text.toList p.skipTrivia.rest).isSome

/-- The keyword is at the front of the text, with nothing but white space and comments behind it. -/
def Dangles (caseSensitive : Bool) (k : Keyword) (text : List Char) : Prop :=
  ∃ rest, Lexeme.afterWord? caseSensitive k.text.toList text = some rest ∧ Text.IsEnding rest

/-- The text begins with what stands behind the keyword. -/
def CompletedBy (k : Keyword) (text : List Char) : Prop :=
  match k with
  | .targetOutput => text.head? = some '{'
  | .materialScheme => (Scan.label text).isSome
  | _ => False

/-- Neither keyword is found at the front of the other. -/
def parted (k k' : Keyword) : Bool := k.apart k' && k'.apart k

/-- A keyword is not found together with a longer one that it is apart from. -/
theorem not_foundAt_of_apart (hapart : k.apart k' = true)
    (hlength : k.text.toList.length ≤ k'.text.toList.length)
    (h : k.FoundAt caseSensitive p) : ¬ k'.FoundAt caseSensitive p := by
  intro h'
  obtain ⟨rest, hrest⟩ := Option.isSome_iff_exists.mp h
  obtain ⟨rest', hrest'⟩ := Option.isSome_iff_exists.mp h'
  obtain ⟨spelling, hsplit, hspells⟩ := Lexeme.spells_of_afterWord? hrest
  obtain ⟨spelling', hsplit', hspells'⟩ := Lexeme.spells_of_afterWord? hrest'
  -- the shorter one is found at the front of the longer one's spelling
  have hprefix : spelling <+: spelling' := by
    refine List.prefix_of_prefix_length_le ⟨rest, hsplit.symm⟩ ⟨rest', hsplit'.symm⟩ ?_
    rwa [hspells.length_eq, hspells'.length_eq]
  obtain ⟨between, rfl⟩ := hprefix
  have hfound := Lexeme.afterWord?_append hspells between
  have hends : Text.EndsWord [] := by simp [Text.EndsWord]
  have hclashes := Lexeme.afterWord?_of_clashes hspells' hends (refuses_word hapart)
  rw [List.append_nil] at hclashes
  rw [hclashes] at hfound
  cases hfound

/-- Two keywords neither of which is found at the front of the other are not found together. -/
theorem not_foundAt_of_parted (hparted : k.parted k' = true)
    (h : k.FoundAt caseSensitive p) : ¬ k'.FoundAt caseSensitive p := by
  rw [parted, Bool.and_eq_true] at hparted
  rcases Nat.le_total k.text.toList.length k'.text.toList.length with hlength | hlength
  · exact not_foundAt_of_apart hparted.1 hlength h
  · exact fun h' => not_foundAt_of_apart hparted.2 hlength h' h

theorem FoundAt.ahead (h : k.FoundAt caseSensitive p) : p.Ahead := by
  intro hending
  obtain ⟨l, literal, hletters⟩ :=
    List.exists_cons_of_ne_nil (Text.lineEnd_of_isLiteral k.isLiteral_text).1
  rw [FoundAt, Position.skipTrivia_ending hending, hletters] at h
  cases h

/-- Where something is left, no other keyword is found when the text goes on. -/
theorem foundAt_continued {more : List Char} (hahead : p.Ahead)
    (h : k.FoundAt caseSensitive (p.continued more)) : k.FoundAt caseSensitive p := by
  rwa [FoundAt, Position.continued_skipTrivia more hahead, Position.continued_rest,
    Lexeme.afterWord?_continued (Text.lineEnd_of_isLiteral k.isLiteral_text).2,
    Option.isSome_map] at h

end Keyword

namespace Script
variable {caseSensitive : Bool} {active : Nat} {p q : Position} {more : List Char}

/-! ## Elements that begin with keywords -/

/-- The element fails where none of the keywords is found. -/
def Led (caseSensitive : Bool) (keywords : List Keyword) (e : Element) : Prop :=
  ∀ ⦃active p⦄, (∀ k ∈ keywords, ¬ k.FoundAt caseSensitive p) →
    Peg grammar caseSensitive active (.element e) p none

theorem led_literal {k : Keyword} {e : Element} (he : literal? e = some k.text) :
    Led caseSensitive [k] e := by
  intro active p h
  cases e with
  | terminal text emits token =>
    obtain rfl := Option.some.inj he
    refine .leafFails scanner?_terminal ?_
    have hnone := Option.not_isSome_iff_eq_none.mp (h k (List.mem_singleton_self k))
    rw [matchLiteral_of_isLiteral k.isLiteral_text, hnone]
    rfl
  | _ => cases he

theorem led_production {production : Production} {keywords : List Keyword}
    (h : ∀ elements ∈ production.alternatives, ∃ first rest, elements = first :: rest ∧
      Led caseSensitive keywords first) : Led caseSensitive keywords production.element := by
  intro active p hnone
  by_cases hactive : active < Recognition.maxRuleDepth
  · refine .rule hactive (grammar_rule? production) (Peg.alternatives_none.mpr ?_)
    intro elements helements
    obtain ⟨first, rest, rfl, hfirst⟩ := h elements helements
    exact .consFails (hfirst hnone)
  · exact .ruleTooDeep (Nat.le_of_not_lt hactive)

/-- A production whose alternatives begin with the keywords. -/
theorem led_firsts {production : Production} {keywords : List Keyword}
    (hp : production.alternatives.map (fun elements => elements.head?.bind literal?) =
      keywords.map fun k => some k.text) : Led caseSensitive keywords production.element := by
  refine led_production fun elements helements => ?_
  have hmem := List.mem_map_of_mem (f := fun elements => elements.head?.bind literal?) helements
  rw [hp] at hmem
  obtain ⟨k, hk, hfirst⟩ := List.mem_map.mp hmem
  cases elements with
  | nil => cases hfirst
  | cons first rest =>
    refine ⟨first, rest, rfl, fun active p hnone => led_literal hfirst.symm fun k' hk' => ?_⟩
    rw [List.mem_singleton.mp hk']
    exact hnone k hk

/-- A choice of productions begins with what they begin with. -/
theorem led_choice {production : Production} (productions : List Production)
    (hp : production.alternatives = Production.oneOf productions)
    (h : ∀ choice ∈ productions, Led caseSensitive (leads choice) choice.element) :
    Led caseSensitive (productions.flatMap leads) production.element := by
  refine led_production fun elements helements => ?_
  rw [hp] at helements
  obtain ⟨choice, hchoice, rfl⟩ := List.mem_map.mp helements
  exact ⟨choice.element, [], rfl, fun active p hnone =>
    h choice hchoice fun k hk => hnone k (List.mem_flatMap_of_mem hchoice hk)⟩

/-- A production begins with its leads. -/
theorem led_leads {production : Production} (hp : leads production ≠ []) :
    Led caseSensitive (leads production) production.element := by
  cases production
  case targetOption =>
    refine led_choice [.targetInput, .onlyInitial, .visibilityMask, .lodBias, .materialScheme] rfl
      fun choice hchoice => ?_
    simp only [List.mem_cons, List.not_mem_nil, or_false] at hchoice
    rcases hchoice with rfl | rfl | rfl | rfl | rfl
    all_goals exact led_firsts rfl
  case passOption =>
    refine led_choice [.passFirstRenderQueue, .passLastRenderQueue, .passIdentifier, .passMaterial,
      .passInput] rfl fun choice hchoice => ?_
    simp only [List.mem_cons, List.not_mem_nil, or_false] at hchoice
    rcases hchoice with rfl | rfl | rfl | rfl | rfl
    all_goals exact led_firsts rfl
  all_goals first
    | exact absurd rfl hp
    | exact led_firsts rfl

/-- What begins with one of the keywords is failed on where another one is found, and stays so. -/
theorem Led.stays {keywords : List Keyword} {e : Element} (h : Led caseSensitive keywords e)
    {k : Keyword} (hfound : k.FoundAt caseSensitive p)
    (hparted : ∀ k' ∈ keywords, k'.parted k = true) :
    StaysFailed grammar caseSensitive more active (.element e) p := fun _ =>
  h fun k' hk' hfound' => k'.not_foundAt_of_parted (hparted k' hk')
    (Keyword.foundAt_continued hfound.ahead hfound') hfound

/-- Where an element matches, one of its keywords is found. -/
theorem Led.exists_foundAt {keywords : List Keyword} {e : Element}
    (h : Led caseSensitive keywords e) {result : Position × List Token}
    (hpeg : Peg grammar caseSensitive active (.element e) p (some result)) :
    ∃ k ∈ keywords, k.FoundAt caseSensitive p := by
  apply Classical.byContradiction
  intro hnone
  have hfails : ∀ k ∈ keywords, ¬ k.FoundAt caseSensitive p :=
    fun k hk hfound => hnone ⟨k, hk, hfound⟩
  cases hpeg.deterministic (h hfails)

theorem Led.begins {keywords : List Keyword} {e : Element} (h : Led caseSensitive keywords e) :
    Begins grammar caseSensitive (.element e) := by
  intro active p q tokens hpeg
  obtain ⟨k, _, hfound⟩ := h.exists_foundAt hpeg
  exact hfound.ahead

/-! ## Productions -/

section
variable {ends : Position → Prop} {production : Production}

theorem steady_keyword (k : Keyword) : Steady grammar caseSensitive (.element k.element) :=
  steady_leaf k.isLiteral_text

theorem steady_silent (k : Keyword) : Steady grammar caseSensitive (.element (silent k.text)) :=
  steady_leaf k.isLiteral_text

theorem steady_openingBrace : Steady grammar caseSensitive (.element openingBrace) :=
  steady_leaf (by decide)

theorem steady_closingBrace : Steady grammar caseSensitive (.element closingBrace) :=
  steady_leaf (by decide)

theorem steady_number (name : String) : Steady grammar caseSensitive (.element (.number name)) :=
  steady_leaf rfl

/-- A production whose alternatives are each one steady element. -/
theorem steady_production (h : ∀ elements ∈ production.alternatives, ∃ e, elements = [e] ∧
      Steady grammar caseSensitive (.element e)) :
    Steady grammar caseSensitive (.element production.element) := by
  refine steady_rule (grammar_rule? production) (steady_alternatives fun elements helements => ?_)
  obtain ⟨e, rfl, he⟩ := h elements helements
  exact he.single

theorem steady_oneOf {keywords : List Keyword}
    (hp : production.alternatives = Keyword.oneOf keywords) :
    Steady grammar caseSensitive (.element production.element) := by
  refine steady_production fun elements helements => ?_
  rw [hp] at helements
  obtain ⟨k, _, rfl⟩ := List.mem_map.mp helements
  exact ⟨_, rfl, steady_keyword k⟩

/-- A production that is one steady element. -/
theorem steady_single {e : Element} (hp : production.alternatives = [[e]])
    (h : Steady grammar caseSensitive (.element e)) :
    Steady grammar caseSensitive (.element production.element) := by
  refine steady_production fun elements helements => ?_
  rw [hp] at helements
  exact ⟨e, List.mem_singleton.mp helements, h⟩

theorem steady_label : Steady grammar caseSensitive (.element Production.label.element) :=
  steady_single rfl (steady_leaf rfl)

theorem steady_spacedLabel :
    Steady grammar caseSensitive (.element Production.spacedLabel.element) :=
  steady_single rfl (steady_leaf (by decide))

theorem steady_wordContinues :
    Steady grammar caseSensitive (.element Production.wordContinues.element) :=
  steady_single rfl (steady_leaf isLiteral_underscore)

/-- The length of a texture: a keyword or a number. -/
theorem steady_length {k : Keyword} {name : String}
    (hp : production.alternatives = [[k.element], [.number name]]) :
    Steady grammar caseSensitive (.element production.element) := by
  refine steady_production fun elements helements => ?_
  rw [hp] at helements
  simp only [List.mem_cons, List.not_mem_nil, or_false] at helements
  rcases helements with rfl | rfl
  · exact ⟨_, rfl, steady_keyword k⟩
  · exact ⟨_, rfl, steady_number name⟩

/-- A production with one alternative. -/
theorem lasts_single {elements : List Element} (hp : production.alternatives = [elements])
    (h : Lasts grammar caseSensitive ends (.sequence elements)) :
    Lasts grammar caseSensitive ends (.element production.element) := by
  refine lasts_rule (grammar_rule? production) ?_
  show Lasts grammar caseSensitive ends (.alternatives production.alternatives)
  rw [hp]
  intro active p q tokens more hpeg hq
  cases hpeg with
  | firstMatches hpeg => exact .firstMatches (h more hpeg hq)
  | firstFails _ hrest => cases hrest

/-- A single element as a sequence. -/
theorem peg_singleton {e : Element} {outcome : Option (Position × List Token)} :
    Peg grammar caseSensitive active (.sequence [e]) p outcome ↔
      Peg grammar caseSensitive active (.element e) p outcome := by
  constructor
  · intro h
    cases h with
    | cons hpeg hnil =>
      cases hnil
      rwa [List.append_nil]
    | consFails hpeg => exact hpeg
    | consFailsLater _ hnil => cases hnil
  · intro h
    cases outcome with
    | none => exact .consFails h
    | some result =>
      obtain ⟨q, tokens⟩ := result
      have hcons := Peg.cons h .nil
      rwa [List.append_nil] at hcons

/-- At a place where every production of a choice stays failed in front of a later one that
    matches there, a match lasts. -/
theorem lasts_choice {productions : List Production} {tokens : List Token}
    (hp : production.alternatives = Production.oneOf productions)
    (hlasts : ∀ choice ∈ productions, Lasts grammar caseSensitive ends (.element choice.element))
    (hstays : ∀ active result, productions.Pairwise fun first second =>
      Peg grammar caseSensitive active (.element second.element) p (some result) →
      StaysFailed grammar caseSensitive more active (.element first.element) p)
    (hpeg : Peg grammar caseSensitive active (.element production.element) p (some (q, tokens)))
    (hq : ends q) :
    Peg grammar caseSensitive active (.element production.element) (p.continued more)
      (some (q.continued more, tokens)) := by
  obtain ⟨hactive, hbody⟩ := hpeg.exists_of_rule (grammar_rule? production)
  refine .rule hactive (grammar_rule? production) ?_
  change Peg grammar caseSensitive (active + 1) (.alternatives production.alternatives) _ _ at hbody
  show Peg grammar caseSensitive (active + 1) (.alternatives production.alternatives) _ _
  rw [hp] at hbody ⊢
  refine lasts_alternatives ?_ ?_ hbody
  · intro elements helements hpeg
    obtain ⟨choice, hchoice, rfl⟩ := List.mem_map.mp helements
    rw [peg_singleton] at hpeg ⊢
    exact hlasts choice hchoice more hpeg hq
  · refine List.pairwise_map.mpr ((hstays (active + 1) (q, tokens)).imp ?_)
    intro first second hstays hpeg hfails
    rw [peg_singleton] at hpeg hfails ⊢
    exact hstays hpeg hfails

/-- The keywords that two productions begin with are not found together. -/
def Parted (first second : Production) : Prop :=
  leads first ≠ [] ∧ leads second ≠ [] ∧
    ∀ k ∈ leads first, ∀ k' ∈ leads second, k.parted k' = true

instance (first second : Production) : Decidable (Parted first second) :=
  inferInstanceAs (Decidable (_ ∧ _))

/-- A production stays failed in front of another one that it is parted from. -/
theorem Parted.stays {first second : Production} (h : Parted first second)
    {result : Position × List Token}
    (hpeg : Peg grammar caseSensitive active (.element second.element) p (some result)) :
    StaysFailed grammar caseSensitive more active (.element first.element) p := by
  obtain ⟨hfirst, hsecond, hparted⟩ := h
  obtain ⟨k, hk, hfound⟩ := (led_leads hsecond).exists_foundAt hpeg
  exact (led_leads hfirst).stays hfound fun k' hk' => hparted k' hk' k hk

/-- A choice of productions that are parted. -/
theorem lasts_parted {productions : List Production}
    (hp : production.alternatives = Production.oneOf productions)
    (hlasts : ∀ choice ∈ productions, Lasts grammar caseSensitive ends (.element choice.element))
    (hparted : productions.Pairwise Parted) :
    Lasts grammar caseSensitive ends (.element production.element) := by
  intro active p q tokens more hpeg hq
  exact lasts_choice hp hlasts
    (fun active result => hparted.imp fun hparted hpeg => hparted.stays hpeg) hpeg hq

end

/-! ## Options -/

section
variable {ends : Position → Prop} {production : Production}

theorem lasts_optionOf {k : Keyword} {value : Production}
    (hp : production.alternatives = optionOf k value)
    (h : Steady grammar caseSensitive (.element value.element)) :
    Lasts grammar caseSensitive ends (.element production.element) :=
  lasts_single hp ((steady_keyword k).lasts_cons (h.lasts_cons lasts_nil))

theorem lasts_numberOption {k : Keyword} {name : String}
    (hp : production.alternatives = numberOption k name) :
    Lasts grammar caseSensitive ends (.element production.element) :=
  lasts_single hp ((steady_keyword k).lasts_cons ((steady_number name).lasts_cons lasts_nil))

theorem lasts_targetOption :
    Lasts grammar caseSensitive ends (.element Production.targetOption.element) := by
  refine lasts_parted rfl (fun choice hchoice => ?_) (by decide)
  simp only [List.mem_cons, List.not_mem_nil, or_false] at hchoice
  rcases hchoice with rfl | rfl | rfl | rfl | rfl
  · exact lasts_optionOf rfl (steady_oneOf rfl)
  · exact lasts_optionOf rfl (steady_oneOf rfl)
  · exact lasts_numberOption rfl
  · exact lasts_numberOption rfl
  · exact lasts_optionOf rfl steady_label

theorem lasts_passInput :
    Lasts grammar caseSensitive ends (.element Production.passInput.element) :=
  lasts_single rfl ((steady_keyword .input).lasts_cons
    ((steady_number "id").lasts_cons (steady_label.lasts_cons lasts_nil)))

theorem lasts_passOption :
    Lasts grammar caseSensitive ends (.element Production.passOption.element) := by
  refine lasts_parted rfl (fun choice hchoice => ?_) (by decide)
  simp only [List.mem_cons, List.not_mem_nil, or_false] at hchoice
  rcases hchoice with rfl | rfl | rfl | rfl | rfl
  · exact lasts_numberOption rfl
  · exact lasts_numberOption rfl
  · exact lasts_numberOption rfl
  · exact lasts_optionOf rfl steady_label
  · exact lasts_passInput

theorem lasts_stencilOption :
    Lasts grammar caseSensitive ends (.element Production.stencilOption.element) := by
  refine lasts_parted rfl (fun choice hchoice => ?_) (by decide)
  simp only [List.mem_cons, List.not_mem_nil, or_false] at hchoice
  rcases hchoice with rfl | rfl | rfl | rfl | rfl | rfl | rfl | rfl
  · exact lasts_optionOf rfl (steady_oneOf rfl)
  · exact lasts_optionOf rfl (steady_oneOf rfl)
  · exact lasts_numberOption rfl
  · exact lasts_numberOption rfl
  · exact lasts_optionOf rfl (steady_oneOf rfl)
  · exact lasts_optionOf rfl (steady_oneOf rfl)
  · exact lasts_optionOf rfl (steady_oneOf rfl)
  · exact lasts_optionOf rfl (steady_oneOf rfl)

/-! ## Blocks of options -/

/-- A buffer is a keyword that no underscore goes on with. -/
theorem lasts_wholeWord {k : Keyword} (hp : production.alternatives = wholeWord k) :
    Lasts grammar caseSensitive Position.Ahead (.element production.element) := by
  refine lasts_single hp ((steady_keyword k).lasts_cons ?_)
  refine lasts_cons (lasts_notAhead steady_wordContinues) lasts_nil ?_
  intro active q r tokens hpeg hr
  cases hpeg
  exact hr

theorem staysFailed_wholeWord {k : Keyword} (hp : production.alternatives = wholeWord k)
    (hahead : p.Ahead) :
    StaysFailed grammar caseSensitive more active (.element production.element) p := by
  refine staysFailed_rule (grammar_rule? production) ?_
  show StaysFailed grammar caseSensitive more (active + 1) (.alternatives production.alternatives) p
  rw [hp]
  intro hpeg
  rw [Peg.alternatives_none, wholeWord, List.forall_mem_singleton] at hpeg ⊢
  refine staysFailed_cons (steady_keyword k) hahead (fun q tokens _ hrest => ?_) hpeg
  rw [peg_singleton] at hrest ⊢
  exact staysFailed_notAhead steady_wordContinues.lasts hrest

theorem lasts_bufferType :
    Lasts grammar caseSensitive Position.Ahead (.element Production.bufferType.element) := by
  refine lasts_parted rfl (fun choice hchoice => ?_) (by decide)
  simp only [List.mem_cons, List.not_mem_nil, or_false] at hchoice
  rcases hchoice with rfl | rfl | rfl
  · exact lasts_wholeWord rfl
  · exact lasts_wholeWord rfl
  · exact lasts_wholeWord rfl

theorem staysFailed_bufferType (hahead : p.Ahead) :
    StaysFailed grammar caseSensitive more active (.element Production.bufferType.element) p := by
  refine staysFailed_rule (grammar_rule? .bufferType) fun hpeg => ?_
  rw [Peg.alternatives_none] at hpeg ⊢
  intro elements helements
  have hfails := hpeg elements helements
  obtain ⟨choice, hchoice, rfl⟩ := List.mem_map.mp helements
  rw [peg_singleton] at hfails ⊢
  simp only [List.mem_cons, List.not_mem_nil, or_false] at hchoice
  rcases hchoice with rfl | rfl | rfl
  · exact staysFailed_wholeWord rfl hahead hfails
  · exact staysFailed_wholeWord rfl hahead hfails
  · exact staysFailed_wholeWord rfl hahead hfails

/-- Buffers last in front of something: there they end where they ended. -/
theorem lasts_buffers :
    Lasts grammar caseSensitive Position.Ahead (.element Production.buffers.element) := by
  have hleads : ∀ choice ∈ [Production.colour, .depth, .stencil], leads choice ≠ [] := by decide
  have hled : Led caseSensitive _ Production.bufferType.element :=
    led_choice [.colour, .depth, .stencil] rfl fun choice hchoice =>
      led_leads (hleads choice hchoice)
  have hrepeated : Lasts grammar caseSensitive Position.Ahead
      (.element (.repeated Production.bufferType.element)) :=
    lasts_repeated hled.begins lasts_bufferType (fun _ h => h)
      fun _ _ _ h => staysFailed_bufferType h
  refine lasts_single rfl ((steady_keyword .buffers).lasts_cons
    (lasts_cons hrepeated lasts_nil ?_))
  intro active q r tokens hpeg hr
  cases hpeg
  exact hr

theorem lasts_clearOption :
    Lasts grammar caseSensitive Position.Ahead (.element Production.clearOption.element) := by
  refine lasts_parted rfl (fun choice hchoice => ?_) (by decide)
  simp only [List.mem_cons, List.not_mem_nil, or_false] at hchoice
  rcases hchoice with rfl | rfl | rfl | rfl
  · exact lasts_buffers
  · refine lasts_single rfl (lasts_of_steady fun e he => ?_)
    simp only [List.mem_cons, List.not_mem_nil, or_false] at he
    rcases he with rfl | rfl | rfl | rfl | rfl
    · exact steady_keyword .colourValue
    all_goals exact steady_number _
  · exact lasts_numberOption rfl
  · exact lasts_numberOption rfl

/-- A block of options lasts: its brace stands where the last option ends. -/
theorem lasts_optionBlock {k : Keyword} {option : Production} {options : List Production}
    (hp : production.alternatives = optionBlock k option)
    (hoption : option.alternatives = Production.oneOf options)
    (hleads : ∀ choice ∈ options, leads choice ≠ [] ∧
      ∀ k' ∈ leads choice, k'.parted .closeBrace = true)
    (hlasts : Lasts grammar caseSensitive Position.Ahead (.element option.element)) :
    Lasts grammar caseSensitive ends (.element production.element) := by
  have hled : Led caseSensitive (options.flatMap leads) option.element :=
    led_choice options hoption fun choice hchoice => led_leads (hleads choice hchoice).1
  have hbrace : ∀ k' ∈ options.flatMap leads, k'.parted .closeBrace = true := by
    intro k' hk'
    obtain ⟨choice, hchoice, hk'⟩ := List.mem_flatMap.mp hk'
    exact (hleads choice hchoice).2 k' hk'
  have hclosing : Led caseSensitive [.closeBrace] closingBrace := led_literal rfl
  have hrepeated : Lasts grammar caseSensitive (Keyword.closeBrace.FoundAt caseSensitive)
      (.element (.repeated option.element)) :=
    lasts_repeated hled.begins hlasts (fun _ h => h.ahead) fun _ _ _ h => hled.stays h hbrace
  refine lasts_single hp ((steady_silent k).lasts_cons (steady_openingBrace.lasts_cons
    (lasts_cons hrepeated (steady_closingBrace.lasts_cons lasts_nil) ?_)))
  intro active q r tokens hpeg _
  obtain ⟨k', hk', hfound⟩ := hclosing.exists_foundAt (peg_singleton.mp hpeg)
  rwa [List.mem_singleton.mp hk'] at hfound

theorem lasts_clearSection :
    Lasts grammar caseSensitive ends (.element Production.clearSection.element) :=
  lasts_optionBlock rfl rfl (by decide) lasts_clearOption

theorem lasts_stencilSection :
    Lasts grammar caseSensitive ends (.element Production.stencilSection.element) :=
  lasts_optionBlock rfl rfl (by decide) lasts_stencilOption

/-! ## Openers -/

/-- What a literal leaves of the text that it matches. -/
theorem rest_of_terminal {text : String} {emits : Bool} {token : Option Nat} {tokens : List Token}
    (hliteral : Text.isLiteral text.toList = true)
    (h : Peg grammar caseSensitive active (.element (.terminal text emits token)) p
      (some (q, tokens))) :
    Lexeme.afterWord? caseSensitive text.toList p.skipTrivia.rest = some q.rest := by
  have houtcome := h.outcome_of_scanner scanner?_terminal
  rw [matchLiteral_of_isLiteral hliteral] at houtcome
  cases hafter : Lexeme.afterWord? caseSensitive text.toList p.skipTrivia.rest with
  | none =>
    rw [hafter] at houtcome
    cases houtcome
  | some rest =>
    obtain ⟨spelling, hsplit, hspells⟩ := Lexeme.spells_of_afterWord? hafter
    rw [hafter] at houtcome
    obtain ⟨rfl, _⟩ := Prod.mk.inj (Option.some.inj houtcome)
    rw [Position.advance_rest, hsplit, ← hspells.length_eq, List.drop_left]

/-- A character that is no letter is found as it is. -/
theorem eq_cons_of_afterWord? {c : Char} {text rest : List Char} (hc : c.isAlpha = false)
    (h : Lexeme.afterWord? caseSensitive [c] text = some rest) : text = c :: rest := by
  obtain ⟨spelling, rfl, hspells⟩ := Lexeme.spells_of_afterWord? h
  cases hspells with
  | cons hletter hnil =>
    cases hnil
    rw [Text.eq_of_toLower_eq (Text.toLower_of_sameLetter hletter).symm hc]
    rfl

/-- No name begins with a quote. -/
theorem stays_quotedLabel {result : Position × List Token}
    (hpeg : Peg grammar caseSensitive active (.element Production.spacedLabel.element) p
      (some result)) :
    StaysFailed grammar caseSensitive more active (.element Production.quotedLabel.element) p := by
  have hahead : p.Ahead := steady_spacedLabel.begins hpeg
  obtain ⟨_, hbody⟩ := hpeg.exists_of_rule (grammar_rule? .spacedLabel)
  obtain ⟨_, helements, hbody⟩ := hbody.exists_alternative
  rw [List.mem_singleton.mp helements, peg_singleton] at hbody
  have hrun := hbody.outcome_of_scanner rfl
  refine staysFailed_rule (grammar_rule? .quotedLabel) ?_
  intro hfails
  rw [Peg.alternatives_none, show Production.quotedLabel.rule.alternatives = [_] from rfl,
    List.forall_mem_singleton] at hfails ⊢
  refine staysFailed_cons (steady_leaf (by decide)) hahead (fun r tokens hquote => ?_) hfails
  -- where a quote is found no name is
  have hfound : Lexeme.afterWord? caseSensitive ['"'] p.skipTrivia.rest = some r.rest :=
    rest_of_terminal (by decide) hquote
  rw [eq_cons_of_afterWord? rfl hfound, Scan.run_stop (by decide)] at hrun
  cases hrun

theorem lasts_flexLabel :
    Lasts grammar caseSensitive ends (.element Production.flexLabel.element) := by
  intro active p q tokens more hpeg hq
  refine lasts_choice rfl (fun choice hchoice => ?_) (fun active result => ?_) hpeg hq
  · simp only [List.mem_cons, List.not_mem_nil, or_false] at hchoice
    rcases hchoice with rfl | rfl
    · refine lasts_single rfl (lasts_of_steady fun e he => ?_)
      simp only [List.mem_cons, List.not_mem_nil, or_false] at he
      rcases he with rfl | rfl | rfl
      · exact steady_leaf (by decide)
      · exact steady_spacedLabel
      · exact steady_leaf (by decide)
    · exact steady_spacedLabel.lasts.imp fun _ _ => trivial
  · rw [List.pairwise_pair]
    exact stays_quotedLabel

theorem lasts_pass : Lasts grammar caseSensitive ends (.element Production.pass.element) := by
  have hpassType : Steady grammar caseSensitive (.element Production.passType.element) :=
    steady_oneOf rfl
  refine lasts_single rfl ((steady_keyword .pass).lasts_cons (lasts_cons
    (lasts_notAhead steady_wordContinues)
    (hpassType.lasts_cons (steady_openingBrace.lasts_cons lasts_nil)) ?_))
  exact fun active q r tokens hpeg _ => begins_cons hpassType.begins hpeg

theorem lasts_texture : Lasts grammar caseSensitive ends (.element Production.texture.element) := by
  refine lasts_single rfl (lasts_of_steady fun e he => ?_)
  simp only [List.mem_cons, List.not_mem_nil, or_false] at he
  rcases he with rfl | rfl | rfl | rfl | rfl
  · exact steady_keyword .texture
  · exact steady_label
  · exact steady_length rfl
  · exact steady_length rfl
  · exact steady_oneOf rfl

/-! ## Keywords that dangle -/

/-- The text goes on with no brace. -/
theorem fails_openingBrace (hending : Text.IsEnding p.rest)
    (hbrace : ¬ Keyword.targetOutput.CompletedBy (Position.start more).skipTrivia.rest) :
    Peg grammar caseSensitive active (.element openingBrace) (p.continued more) none := by
  refine .leafFails scanner?_terminal ?_
  have hliteral : Text.isLiteral "\x7b".toList = true := by decide
  rw [matchLiteral_of_isLiteral hliteral, Position.continued_skipTrivia_ending more hending]
  cases hfound : Lexeme.afterWord? caseSensitive "\x7b".toList
      (Position.start more).skipTrivia.rest with
  | none => rfl
  | some rest =>
    have hhead : (Position.start more).skipTrivia.rest = '{' :: rest :=
      eq_cons_of_afterWord? rfl hfound
    exact absurd (congrArg List.head? hhead) hbrace

/-- The text goes on with no label. -/
theorem fails_label (hending : Text.IsEnding p.rest)
    (hlabel : ¬ Keyword.materialScheme.CompletedBy (Position.start more).skipTrivia.rest) :
    Peg grammar caseSensitive active (.element Production.label.element) (p.continued more)
      none := by
  by_cases hactive : active < Recognition.maxRuleDepth
  · refine .rule hactive (grammar_rule? .label) (.firstFails (.consFails ?_) .noAlternative)
    refine .leafFails rfl ?_
    rw [Position.continued_skipTrivia_ending more hending]
    have hnone := Option.not_isSome_iff_eq_none.mp hlabel
    rw [hnone]
    rfl
  · exact .ruleTooDeep (Nat.le_of_not_lt hactive)

/-- A keyword and one element stay failed unless the keyword dangles and the text goes on with
    the element. -/
theorem stays_of_dangles {k : Keyword} {e : Element}
    (hp : production.alternatives = [[k.element, e]])
    (he : Steady grammar caseSensitive (.element e)) (hahead : p.Ahead)
    (h : k.Dangles caseSensitive p.skipTrivia.rest → ∀ ⦃active⦄ ⦃r : Position⦄,
      Text.IsEnding r.rest → Peg grammar caseSensitive active (.element e) (r.continued more) none) :
    StaysFailed grammar caseSensitive more active (.element production.element) p := by
  refine staysFailed_rule (grammar_rule? production) ?_
  show StaysFailed grammar caseSensitive more (active + 1) (.alternatives production.alternatives) p
  rw [hp]
  intro hfails
  rw [Peg.alternatives_none, List.forall_mem_singleton] at hfails ⊢
  refine staysFailed_cons (steady_keyword k) hahead (fun r tokens hpeg => ?_) hfails
  -- behind the keyword the element looks at what is left of the text, or else at what follows
  by_cases hending : Text.IsEnding r.rest
  · intro _
    rw [peg_singleton]
    exact h ⟨r.rest, rest_of_terminal k.isLiteral_text hpeg, hending⟩ hending
  · exact he.single.stays hending

/-- In front of a slot and a texture an `input` does not dangle. -/
theorem not_dangles_input {result : Position × List Token}
    (hpeg : Peg grammar caseSensitive active (.element Production.passInput.element) p
      (some result)) : ¬ Keyword.input.Dangles caseSensitive p.skipTrivia.rest := by
  obtain ⟨_, hbody⟩ := hpeg.exists_of_rule (grammar_rule? .passInput)
  obtain ⟨_, helements, hsequence⟩ := hbody.exists_alternative
  rw [List.mem_singleton.mp helements] at hsequence
  rintro ⟨rest, hrest, hending⟩
  cases hsequence with
  | cons hkeyword hvalues =>
    cases hrest.symm.trans (rest_of_terminal Keyword.input.isLiteral_text hkeyword)
    exact begins_cons (steady_number "id").begins hvalues hending

/-- The options of a target that begin like options of a pass. -/
theorem parted_options :
    ∀ first ∈ [Production.targetInput, .onlyInitial, .visibilityMask, .lodBias, .materialScheme],
      ∀ second ∈ [Production.passFirstRenderQueue, .passLastRenderQueue, .passIdentifier,
          .passMaterial, .passInput],
        Parted first second ∨ (first = .targetInput ∧ second = .passInput) ∨
          (first = .materialScheme ∧ second = .passMaterial) := by
  decide

/-- In front of an option of a pass, those of a target stay failed unless a `material_scheme`
    that dangles is completed: an `input` with a slot does not dangle. -/
theorem stays_targetOption {result : Position × List Token}
    (h : Keyword.materialScheme.Dangles caseSensitive p.skipTrivia.rest →
      ¬ Keyword.materialScheme.CompletedBy (Position.start more).skipTrivia.rest)
    (hpeg : Peg grammar caseSensitive active (.element Production.passOption.element) p
      (some result)) :
    StaysFailed grammar caseSensitive more active (.element Production.targetOption.element) p := by
  have hled : Led caseSensitive _ Production.passOption.element := led_leads (by decide)
  have hahead : p.Ahead := hled.begins hpeg
  obtain ⟨_, hbody⟩ := hpeg.exists_of_rule (grammar_rule? .passOption)
  obtain ⟨_, helements, hsecond⟩ := hbody.exists_alternative
  obtain ⟨second, hmem, rfl⟩ := List.mem_map.mp helements
  rw [peg_singleton] at hsecond
  refine staysFailed_rule (grammar_rule? .targetOption) fun hfails => ?_
  rw [Peg.alternatives_none] at hfails ⊢
  intro elements helements
  have hfirst := hfails elements helements
  obtain ⟨first, hmem', rfl⟩ := List.mem_map.mp helements
  rw [peg_singleton] at hfirst ⊢
  rcases parted_options first hmem' second hmem with hparted | ⟨rfl, rfl⟩ | ⟨rfl, rfl⟩
  · exact hparted.stays hsecond hfirst
  · exact stays_of_dangles rfl (steady_oneOf rfl) hahead
      (fun hdangles => absurd hdangles (not_dangles_input hsecond)) hfirst
  · exact stays_of_dangles rfl steady_label hahead
      (fun hdangles _ _ hending => fails_label hending (h hdangles)) hfirst

/-! ## Statements -/

/-- The statements, in the order in which they are tried. -/
def statements : List Production :=
  [.compositor, .technique, .texture, .targetOutput, .target, .pass, .targetOption, .passOption,
    .clearSection, .stencilSection, .closeBrace]

/-- The statements that begin like later ones. -/
theorem parted_statements :
    statements.Pairwise fun first second => Parted first second ∨
      (first = .targetOutput ∧ second = .target) ∨
        (first = .targetOption ∧ second = .passOption) := by
  decide

theorem lasts_of_mem_statements {choice : Production} (h : choice ∈ statements) :
    Lasts grammar caseSensitive ends (.element choice.element) := by
  simp only [statements, List.mem_cons, List.not_mem_nil, or_false] at h
  rcases h with rfl | rfl | rfl | rfl | rfl | rfl | rfl | rfl | rfl | rfl | rfl
  · exact lasts_single rfl ((steady_keyword .compositor).lasts_cons (lasts_cons lasts_flexLabel
      (steady_openingBrace.lasts_cons lasts_nil) fun _ _ _ _ _ _ => trivial))
  · exact lasts_single rfl
      ((steady_keyword .technique).lasts_cons (steady_openingBrace.lasts_cons lasts_nil))
  · exact lasts_texture
  · exact lasts_single rfl
      ((steady_keyword .targetOutput).lasts_cons (steady_openingBrace.lasts_cons lasts_nil))
  · exact lasts_single rfl ((steady_keyword .target).lasts_cons
      (steady_label.lasts_cons (steady_openingBrace.lasts_cons lasts_nil)))
  · exact lasts_pass
  · exact lasts_targetOption
  · exact lasts_passOption
  · exact lasts_clearSection
  · exact lasts_stencilSection
  · exact (steady_oneOf rfl).lasts.imp fun _ _ => trivial

/-- A statement lasts unless a `target_output` or `material_scheme` that dangles where it begins
    is completed. -/
theorem lasts_statement {tokens : List Token}
    (hdangles : ∀ k : Keyword, k.Dangles caseSensitive p.skipTrivia.rest →
      ¬ k.CompletedBy (Position.start more).skipTrivia.rest)
    (hpeg : Peg grammar caseSensitive active (.element Production.statement.element) p
      (some (q, tokens))) :
    Peg grammar caseSensitive active (.element Production.statement.element) (p.continued more)
      (some (q.continued more, tokens)) := by
  have hlasts : ∀ choice ∈ statements,
      Lasts grammar caseSensitive (fun _ => True) (.element choice.element) :=
    fun _ h => lasts_of_mem_statements h
  refine lasts_choice rfl hlasts (fun active result => ?_) hpeg trivial
  refine parted_statements.imp fun {first second} hcases hsecond => ?_
  rcases hcases with hparted | ⟨rfl, rfl⟩ | ⟨rfl, rfl⟩
  · exact hparted.stays hsecond
  · -- `target_output` in front of a target whose label begins with an underscore
    have hled : Led caseSensitive _ Production.target.element := led_leads (by decide)
    exact stays_of_dangles rfl steady_openingBrace (hled.begins hsecond)
      fun h _ _ hending => fails_openingBrace hending (hdangles .targetOutput h)
  · exact stays_targetOption (hdangles .materialScheme) hsecond

end
end Script
end Compositing
