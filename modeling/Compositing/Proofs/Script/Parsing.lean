import Compositing.Proofs.Script.Description
import Compositing.Proofs.Script.Keywords

/-! # Described options are parsed

    Alternatives are tried in order, and a keyword matches at the front, so a
    production of a choice has to get past those before it.  It does because
    its first keyword is apart from theirs.  Buffers in a clear block end where
    the word goes on. -/

namespace Compositing.Script

variable {caseSensitive : Bool} {room : Nat} {rest left : List Piece} {kinds : List Token.Kind}

/-! ## Keywords -/

theorem reads_keyword (k : Keyword) :
    Reads grammar caseSensitive room (.element k.element) (.word k.text.toList :: rest) rest
      [k.kind] :=
  reads_word (k.isLiteral_text)

theorem fails_keyword {k : Keyword} {piece : Piece} (h : piece.refuses k.text.toList = true) :
    Fails grammar caseSensitive room (.element k.element) (piece :: rest) :=
  fails_terminal (k.isLiteral_text) h

theorem reads_openingBrace :
    Reads grammar caseSensitive room (.element openingBrace) (.mark '\x7b' :: rest) rest [] :=
  reads_mark rfl

theorem reads_closingBrace :
    Reads grammar caseSensitive room (.element closingBrace) (.mark '\x7d' :: rest) rest [] :=
  reads_mark rfl

/-! ## Productions -/

section
variable {p : Production} {pieces : List Piece}

theorem reads_production
    (h : Reads grammar caseSensitive room (.alternatives p.alternatives) pieces left kinds) :
    Reads grammar caseSensitive (room + 1) (.element p.element) pieces left kinds :=
  reads_rule (grammar_rule? p) h

theorem fails_production
    (h : Fails grammar caseSensitive room (.alternatives p.alternatives) pieces) :
    Fails grammar caseSensitive (room + 1) (.element p.element) pieces :=
  fails_rule (grammar_rule? p) h

/-- A production with one alternative. -/
theorem reads_single {elements : List Element} (hp : p.alternatives = [elements])
    (h : Reads grammar caseSensitive room (.sequence elements) pieces left kinds) :
    Reads grammar caseSensitive (room + 1) (.element p.element) pieces left kinds := by
  apply reads_production
  rw [hp]
  exact reads_alternatives [] (by simp) h

/-- A last element. -/
theorem reads_last {e : Element}
    (h : Reads grammar caseSensitive room (.element e) pieces left kinds) :
    Reads grammar caseSensitive room (.sequence [e]) pieces left kinds := by
  have hcons := reads_cons h reads_nil
  rwa [List.append_nil] at hcons

/-- A choice reads what one of its productions reads if those before it fail. -/
theorem reads_choice {q : Production} (before : List Production) {after : List Production}
    (hp : p.alternatives = Production.oneOf (before ++ q :: after))
    (hbefore : ∀ p' ∈ before, Fails grammar caseSensitive room (.element p'.element) pieces)
    (h : Reads grammar caseSensitive room (.element q.element) pieces left kinds) :
    Reads grammar caseSensitive (room + 1) (.element p.element) pieces left kinds := by
  apply reads_production
  rw [hp, Production.oneOf, List.map_append, List.map_cons]
  apply reads_alternatives
  · intro elements helements
    obtain ⟨p', hp', rfl⟩ := List.mem_map.mp helements
    exact fails_cons (hbefore p' hp')
  · exact reads_last h

/-- A choice of keywords that do not begin one another. -/
theorem reads_oneOf {keywords : List Keyword} (hp : p.alternatives = Keyword.oneOf keywords)
    (hkeywords : keywords.Pairwise fun k k' => k.apart k' = true)
    {k : Keyword} (hk : k ∈ keywords) :
    Reads grammar caseSensitive (room + 1) (.element p.element) (.word k.text.toList :: rest) rest
      [k.kind] := by
  apply reads_production
  obtain ⟨before, after, rfl⟩ := List.append_of_mem hk
  rw [hp, Keyword.oneOf, List.map_append, List.map_cons]
  apply reads_alternatives
  · intro elements helements
    obtain ⟨k', hk', rfl⟩ := List.mem_map.mp helements
    have hapart := (List.pairwise_append.mp hkeywords).2.2 k' hk' k (by simp)
    exact fails_cons (fails_keyword (Keyword.refuses_word hapart))
  · exact reads_last (reads_keyword k)

end

/-! ## Productions that fail -/

/-- The text of a literal. -/
def literal? : Element → Option String
  | .terminal text _ _ => some text
  | _ => none

/-- The keywords that the statements of a production begin with. -/
def leads : Production → List Keyword
  | .targetOption => [.input, .onlyInitial, .visibilityMask, .lodBias, .materialScheme]
  | .passOption => [.firstRenderQueue, .lastRenderQueue, .identifier, .material, .input]
  | .clearSection => [.clear]
  | .colour => [.colour]
  | .depth => [.depth]
  | .stencil | .stencilSection => [.stencil]
  | p => (p.action?.map Action.keyword).toList

/-- A production whose alternatives begin with keywords fails where all of them are refused. -/
theorem fails_of_literals {p : Production} (keywords : List Keyword) {piece : Piece}
    (hp : p.alternatives.map (fun elements => elements.head?.bind literal?) =
      keywords.map fun k => some k.text)
    (h : ∀ k ∈ keywords, piece.refuses k.text.toList = true) :
    Fails grammar caseSensitive (room + 1) (.element p.element) (piece :: rest) := by
  apply fails_production
  apply fails_alternatives
  intro elements helements
  have hmem := List.mem_map_of_mem (f := fun elements => elements.head?.bind literal?) helements
  rw [hp] at hmem
  obtain ⟨k, hk, htext⟩ := List.mem_map.mp hmem
  cases elements with
  | nil => cases htext
  | cons first elements =>
    cases first with
    | terminal text emits token =>
      obtain rfl := Option.some.inj htext
      exact fails_cons (fails_terminal (k.isLiteral_text) (h k hk))
    | _ => cases htext

theorem fails_choice {p : Production} {productions : List Production} {pieces : List Piece}
    (hp : p.alternatives = Production.oneOf productions)
    (h : ∀ p' ∈ productions, Fails grammar caseSensitive room (.element p'.element) pieces) :
    Fails grammar caseSensitive (room + 1) (.element p.element) pieces := by
  apply fails_production
  rw [hp]
  apply fails_alternatives
  intro elements helements
  obtain ⟨p', hp', rfl⟩ := List.mem_map.mp helements
  exact fails_cons (h p' hp')

/-- A production of an action fails where the keyword of the action is refused. -/
theorem fails_of_action {p : Production} {action : Action} (hp : p.action? = some action)
    {piece : Piece} (h : piece.refuses action.keyword.text.toList = true) :
    Fails grammar caseSensitive (room + 1) (.element p.element) (piece :: rest) := by
  apply fails_of_literals [action.keyword]
  · cases p <;> cases hp <;> rfl
  · intro k hk
    rwa [List.mem_singleton.mp hk]

/-- A choice of productions of actions fails where the keywords of the actions are refused. -/
theorem fails_of_actions {p : Production} {productions : List Production}
    (hp : p.alternatives = Production.oneOf productions) {piece : Piece}
    (h : ∀ p' ∈ productions,
      p'.action?.any (fun action => piece.refuses action.keyword.text.toList) = true) :
    Fails grammar caseSensitive (room + 2) (.element p.element) (piece :: rest) := by
  apply fails_choice hp
  intro p' hp'
  obtain ⟨action, haction, hrefuses⟩ := (Option.any_eq_true _ _).mp (h p' hp')
  exact fails_of_action haction hrefuses

/-- A production of statements fails where the keywords it begins with are refused. -/
theorem fails_of_leads {p : Production} (hp : leads p ≠ []) {piece : Piece}
    (h : ∀ k ∈ leads p, piece.refuses k.text.toList = true) :
    Fails grammar caseSensitive (room + 2) (.element p.element) (piece :: rest) := by
  cases p
  case targetOption | passOption =>
    apply fails_of_actions rfl
    intro p' hp'
    simp only [List.mem_cons, List.not_mem_nil, or_false] at hp'
    rcases hp' with rfl | rfl | rfl | rfl | rfl
    all_goals exact h _ (by simp [leads, Action.keyword])
  case clearSection | stencilSection | colour | depth | stencil => exact fails_of_literals _ rfl h
  all_goals first
    | exact absurd rfl hp
    | exact fails_of_action rfl (h _ (List.mem_singleton.mpr rfl))

/-- The productions before `q` fail on the keyword: those that they begin with are apart from
    it. -/
def Passes (k : Keyword) (q : Production) (productions : List Production) : Prop :=
  q ∈ productions ∧ ∀ p ∈ productions.takeWhile (· != q), leads p ≠ [] ∧
    ∀ k' ∈ leads p, k'.apart k = true

instance (k : Keyword) (q : Production) (productions : List Production) :
    Decidable (Passes k q productions) :=
  inferInstanceAs (Decidable (_ ∧ _))

theorem exists_append_of_mem {q : Production} {productions : List Production}
    (h : q ∈ productions) :
    ∃ after, productions = productions.takeWhile (· != q) ++ q :: after := by
  induction productions with
  | nil => cases h
  | cons p productions ih =>
    by_cases hp : p = q
    · exact ⟨productions, by simp [hp]⟩
    · obtain ⟨after, hafter⟩ := ih ((List.mem_cons.mp h).resolve_left fun heq => hp heq.symm)
      refine ⟨after, ?_⟩
      have htaken : (p :: productions).takeWhile (· != q) =
          p :: productions.takeWhile (· != q) := by
        simp [hp]
      rw [htaken, List.cons_append, ← hafter]

/-- A choice reads what one of its productions reads if those before it fail by their first
    keyword. -/
theorem reads_led (k : Keyword) (q : Production) {p : Production} {productions : List Production}
    (hp : p.alternatives = Production.oneOf productions) (hpasses : Passes k q productions)
    (h : Reads grammar caseSensitive (room + 2) (.element q.element)
      (.word k.text.toList :: rest) left kinds) :
    Reads grammar caseSensitive (room + 3) (.element p.element) (.word k.text.toList :: rest) left
      kinds := by
  obtain ⟨hq, hbefore⟩ := hpasses
  obtain ⟨after, hafter⟩ := exists_append_of_mem hq
  rw [hafter] at hp
  refine reads_choice _ hp (fun p' hp' => ?_) h
  obtain ⟨hleads, hapart⟩ := hbefore p' hp'
  exact fails_of_leads hleads fun k' hk' => Keyword.refuses_word (hapart k' hk')

/-! ## Values -/

section

theorem reads_onOff (on : Bool) :
    Reads grammar caseSensitive (room + 1) (.element Production.onOff.element)
      (.word (switchKeyword on).text.toList :: rest) rest [(switchKeyword on).kind] :=
  reads_oneOf rfl (by decide) (by cases on <;> decide)

theorem reads_inputMode (mode : InputMode) :
    Reads grammar caseSensitive (room + 1) (.element Production.inputMode.element)
      (.word mode.keyword.text.toList :: rest) rest [mode.keyword.kind] :=
  reads_oneOf rfl (by decide) (by cases mode <;> decide)

theorem reads_passType (type : PassType) :
    Reads grammar caseSensitive (room + 1) (.element Production.passType.element)
      (.word type.keyword.text.toList :: rest) rest [type.keyword.kind] :=
  reads_oneOf rfl (by decide) (by cases type <;> decide)

theorem reads_pixelFormat (format : PixelFormat) :
    Reads grammar caseSensitive (room + 1) (.element Production.pixelFormat.element)
      (.word format.keyword.text.toList :: rest) rest [format.keyword.kind] :=
  reads_oneOf rfl (by decide) (by cases format <;> decide)

theorem reads_compFunc (func : CompareFunction) :
    Reads grammar caseSensitive (room + 1) (.element Production.compFunc.element)
      (.word func.keyword.text.toList :: rest) rest [func.keyword.kind] :=
  reads_oneOf rfl (by decide) (by cases func <;> decide)

theorem reads_stencilOperation (op : StencilOperation) :
    Reads grammar caseSensitive (room + 1) (.element Production.stencilOperation.element)
      (.word op.keyword.text.toList :: rest) rest [op.keyword.kind] :=
  reads_oneOf rfl (by decide) (by cases op <;> decide)

theorem reads_labelProduction {s : String} :
    Reads grammar caseSensitive (room + 1) (.element Production.label.element)
      (.label s :: rest) rest [.label s] :=
  reads_single rfl (reads_last reads_label)

/-- The length of a texture: a number, or the keyword that stands for 0. -/
theorem reads_length {p : Production} {k : Keyword} {name : String}
    (hp : p.alternatives = [[k.element], [.number name]]) (length : Option Numeral)
    (hk : ∀ n, (Piece.number n).refuses k.text.toList = true) :
    Reads grammar caseSensitive (room + 1) (.element p.element)
      ((TextureText.length k length).piece :: rest) rest [(TextureText.length k length).kind] := by
  apply reads_production
  rw [hp]
  cases length with
  | none => exact reads_alternatives [] (by simp) (reads_last (reads_keyword k))
  | some n =>
    refine reads_alternatives [[k.element]] ?_ (reads_last reads_number)
    intro elements helements
    rw [List.mem_singleton.mp helements]
    exact fails_cons (fails_keyword (hk n))

end

/-! ## Options -/

section
variable {p : Production} {k : Keyword} {pieces : List Piece}

theorem reads_optionOf {value : Production} (hp : p.alternatives = optionOf k value)
    (h : Reads grammar caseSensitive room (.element value.element) pieces left kinds) :
    Reads grammar caseSensitive (room + 1) (.element p.element) (.word k.text.toList :: pieces) left
      (k.kind :: kinds) :=
  reads_single hp (reads_cons (reads_keyword k) (reads_last h))

theorem reads_numberOption {name : String} {n : Numeral}
    (hp : p.alternatives = numberOption k name) :
    Reads grammar caseSensitive (room + 1) (.element p.element)
      (.word k.text.toList :: .number n :: rest) rest [k.kind, .number n.value] :=
  reads_single hp (reads_cons (reads_keyword k) (reads_last reads_number))

end

theorem reads_targetOption (o : TargetOption) :
    Reads grammar caseSensitive (room + 4) (.element Production.targetOption.element)
      (o.unit.pieces ++ rest) rest o.unit.shape.kinds := by
  cases o with
  | onlyInitial on =>
    exact reads_led .onlyInitial .onlyInitial rfl (by decide)
      (reads_optionOf rfl (reads_onOff on))
  | visibilityMask mask =>
    exact reads_led .visibilityMask .visibilityMask rfl (by decide)
      (reads_numberOption rfl)
  | lodBias bias =>
    exact reads_led .lodBias .lodBias rfl (by decide)
      (reads_numberOption rfl)
  | materialScheme scheme =>
    exact reads_led .materialScheme .materialScheme rfl (by decide)
      (reads_optionOf rfl reads_labelProduction)

theorem reads_passOption (o : PassOption) :
    Reads grammar caseSensitive (room + 4) (.element Production.passOption.element)
      (o.unit.pieces ++ rest) rest o.unit.shape.kinds := by
  cases o with
  | firstRenderQueue queue =>
    exact reads_led .firstRenderQueue .passFirstRenderQueue rfl (by decide)
      (reads_numberOption rfl)
  | lastRenderQueue queue =>
    exact reads_led .lastRenderQueue .passLastRenderQueue rfl (by decide)
      (reads_numberOption rfl)
  | identifier id =>
    exact reads_led .identifier .passIdentifier rfl (by decide)
      (reads_numberOption rfl)
  | material name =>
    exact reads_led .material .passMaterial rfl (by decide)
      (reads_optionOf rfl reads_labelProduction)
  | input slot texture =>
    exact reads_led .input .passInput rfl (by decide)
      (reads_single rfl
        (reads_cons (reads_keyword .input)
          (reads_cons reads_number (reads_last reads_labelProduction))))

theorem reads_stencilOption (o : StencilOption) :
    Reads grammar caseSensitive (room + 4) (.element Production.stencilOption.element)
      (o.unit.pieces ++ rest) rest o.unit.shape.kinds := by
  cases o with
  | check on =>
    exact reads_led .check .check rfl (by decide)
      (reads_optionOf rfl (reads_onOff on))
  | compFunc func =>
    exact reads_led .compFunc .compareFunction rfl (by decide)
      (reads_optionOf rfl (reads_compFunc func))
  | refValue value =>
    exact reads_led .refValue .refVal rfl (by decide)
      (reads_numberOption rfl)
  | mask value =>
    exact reads_led .mask .mask rfl (by decide)
      (reads_numberOption rfl)
  | failOp op =>
    exact reads_led .failOp .failOp rfl (by decide)
      (reads_optionOf rfl (reads_stencilOperation op))
  | depthFailOp op =>
    exact reads_led .depthFailOp .depthFailOp rfl (by decide)
      (reads_optionOf rfl (reads_stencilOperation op))
  | passOp op =>
    exact reads_led .passOp .passOp rfl (by decide)
      (reads_optionOf rfl (reads_stencilOperation op))
  | twoSided on =>
    exact reads_led .twoSided .twoSided rfl (by decide)
      (reads_optionOf rfl (reads_onOff on))

/-! ## Buffers and clear blocks -/

theorem isLiteral_underscore : Text.isLiteral "_".toList = true := by decide

/-- A word ends in front of a piece that does not go on with an underscore. -/
theorem reads_wordEnds {piece : Piece} (h : piece.refuses "_".toList = true) :
    Reads grammar caseSensitive (room + 1) (.element wordEnds) (piece :: rest) (piece :: rest)
      [] := by
  apply reads_notAhead
  apply fails_production
  apply fails_alternatives
  intro elements helements
  rw [List.mem_singleton.mp helements]
  exact fails_cons (fails_terminal isLiteral_underscore h)

/-- A whole word fails on a longer word that goes on with an underscore. -/
theorem fails_wholeWord {p : Production} {k : Keyword} (hp : p.alternatives = wholeWord k)
    {word more : List Char} (hword : word = k.text.toList ++ ("_".toList ++ more))
    (hmore : more ≠ []) :
    Fails grammar caseSensitive (room + 2) (.element p.element) (.word word :: rest) := by
  apply fails_production
  rw [hp, hword]
  apply fails_alternatives
  intro elements helements
  rw [List.mem_singleton.mp helements]
  refine fails_cons_later (reads_front (k.isLiteral_text) (by simp)) (fails_cons ?_)
  exact fails_notAhead (reads_single rfl (reads_last (reads_front isLiteral_underscore hmore)))

/-- Some buffers may end here: at the brace, or at the next option of the block. -/
def EndsBuffers (pieces : List Piece) : Prop :=
  ∃ piece rest, pieces = piece :: rest ∧
    (piece = .mark '\x7d' ∨ ∃ action ∈ clearOptions, piece = .word action.keyword.text.toList)

/-- A buffer is apart from an option of a clear block, or the option is named after it. -/
theorem buffer_or_value : ∀ action ∈ clearOptions, ∀ k ∈ [Keyword.colour, .depth, .stencil],
    k.apart action.keyword = true ∨
      action.keyword.text.toList = k.text.toList ++ ("_".toList ++ "value".toList) := by
  decide

/-- No buffer stands where the buffers end. -/
theorem fails_bufferType {pieces : List Piece} (h : EndsBuffers pieces) :
    Fails grammar caseSensitive (room + 3) (.element Production.bufferType.element) pieces := by
  obtain ⟨piece, rest, rfl, hpiece⟩ := h
  have hbuffer : ∀ {p : Production} {k : Keyword}, leads p = [k] →
      p.alternatives = wholeWord k → k ∈ [Keyword.colour, .depth, .stencil] →
      Fails grammar caseSensitive (room + 2) (.element p.element) (piece :: rest) := by
    intro p k hleads hp hk
    have hrefused : piece.refuses k.text.toList = true →
        Fails grammar caseSensitive (room + 2) (.element p.element) (piece :: rest) := by
      intro hrefuses
      apply fails_of_leads
      · simp [hleads]
      · simpa [hleads] using hrefuses
    rcases hpiece with rfl | ⟨action, haction, rfl⟩
    · have hbrace : ∀ k ∈ [Keyword.colour, .depth, .stencil], k ≠ .closeBrace := by decide
      exact hrefused (Keyword.refuses_brace (hbrace k hk))
    · rcases buffer_or_value action haction k hk with hapart | hword
      · exact hrefused (Keyword.refuses_word hapart)
      · exact fails_wholeWord hp hword (by decide)
  apply fails_choice rfl
  intro p' hp'
  simp only [List.mem_cons, List.not_mem_nil, or_false] at hp'
  rcases hp' with rfl | rfl | rfl
  · exact hbuffer rfl rfl (by decide)
  · exact hbuffer rfl rfl (by decide)
  · exact hbuffer rfl rfl (by decide)

/-- No buffer and no end of the buffers begins with an underscore. -/
theorem refuses_underscore {pieces : List Piece} (h : EndsBuffers pieces) :
    ∃ piece rest, pieces = piece :: rest ∧ piece.refuses "_".toList = true := by
  obtain ⟨piece, rest, rfl, rfl | ⟨action, haction, rfl⟩⟩ := h
  · exact ⟨_, rest, rfl, by decide⟩
  · exact ⟨_, rest, rfl, action.keyword.refuses_underscore⟩

/-- A buffer in front of a piece that does not begin with an underscore. -/
theorem reads_bufferType (flag : BufferFlag) {piece : Piece}
    (h : piece.refuses "_".toList = true) :
    Reads grammar caseSensitive (room + 3) (.element Production.bufferType.element)
      ((Term.keyword flag.keyword).piece :: piece :: rest) (piece :: rest)
      [(Term.keyword flag.keyword).kind] := by
  have hword : ∀ {p : Production} {k : Keyword}, p.alternatives = wholeWord k →
      Reads grammar caseSensitive (room + 2) (.element p.element)
        (.word k.text.toList :: piece :: rest) (piece :: rest) [k.kind] := by
    intro p k hp
    exact reads_single hp (reads_cons (reads_keyword k) (reads_last (reads_wordEnds h)))
  cases flag with
  | colour => exact reads_led .colour .colour rfl (by decide) (hword rfl)
  | depth => exact reads_led .depth .depth rfl (by decide) (hword rfl)
  | stencil => exact reads_led .stencil .stencil rfl (by decide) (hword rfl)

/-- Any list of buffers is read up to where they end. -/
theorem reads_buffers (flags : List BufferFlag) (hrest : EndsBuffers rest) :
    Reads grammar caseSensitive (room + 3) (.element (.repeated Production.bufferType.element))
      ((flags.map fun flag => (Term.keyword flag.keyword).piece) ++ rest) rest
      (flags.map fun flag => (Term.keyword flag.keyword).kind) := by
  have hend : Fails grammar caseSensitive (room + 3) (.element Production.bufferType.element)
      rest :=
    fails_bufferType hrest
  have hflag : ∀ (flag : BufferFlag) pieces,
      (∃ piece rest, pieces = piece :: rest ∧ piece.refuses "_".toList = true) →
      Reads grammar caseSensitive (room + 3) (.element Production.bufferType.element)
        ([(Term.keyword flag.keyword).piece] ++ pieces) pieces
        [(Term.keyword flag.keyword).kind] := by
    rintro flag _ ⟨piece, rest, rfl, hpiece⟩
    exact reads_bufferType flag hpiece
  have hfollows : ∀ (flag : BufferFlag) pieces,
      (∃ piece rest, pieces = piece :: rest ∧ piece.refuses "_".toList = true) →
      ∃ piece rest, [(Term.keyword flag.keyword).piece] ++ pieces = piece :: rest ∧
        piece.refuses "_".toList = true := by
    intro flag pieces _
    exact ⟨_, pieces, rfl, flag.keyword.refuses_underscore⟩
  rw [List.map_eq_flatMap, List.map_eq_flatMap]
  exact (reads_repeated _ _ _ (refuses_underscore hrest) hend hfollows hflag (by simp) flags).1

theorem reads_clearOption (o : ClearOption) (hrest : EndsBuffers rest) :
    Reads grammar caseSensitive (room + 5) (.element Production.clearOption.element)
      (o.unit.pieces ++ rest) rest o.unit.shape.kinds := by
  cases o with
  | buffers flags =>
    simp only [ClearOption.unit, UnitText.pieces, UnitText.shape, UnitShape.kinds, List.map_map]
    exact reads_led .buffers .buffers rfl (by decide)
      (reads_single rfl
        (reads_cons (reads_keyword .buffers) (reads_last (reads_buffers flags hrest))))
  | colourValue red green blue alpha =>
    exact reads_led .colourValue .colourValue rfl (by decide)
      (reads_single rfl
        (reads_cons (reads_keyword .colourValue)
          (reads_cons reads_number (reads_cons reads_number
            (reads_cons reads_number (reads_last reads_number))))))
  | depthValue depth =>
    exact reads_led .depthValue .depthValue rfl (by decide)
      (reads_numberOption rfl)
  | stencilValue value =>
    exact reads_led .stencilValue .stencilValue rfl (by decide)
      (reads_numberOption rfl)

/-! ## Option blocks -/

/-- A block of options, each of which is read in front of what may follow one. -/
theorem reads_optionBlock {α : Type} {p option : Production} {k : Keyword}
    (hp : p.alternatives = optionBlock k option) (unit : α → UnitText)
    (follows : List Piece → Prop) (hbrace : follows (.mark '\x7d' :: rest))
    (hend : Fails grammar caseSensitive room (.element option.element) (.mark '\x7d' :: rest))
    (hfollows : ∀ o rest, follows rest → follows ((unit o).pieces ++ rest))
    (hoption : ∀ o rest, follows rest → Reads grammar caseSensitive room (.element option.element)
      ((unit o).pieces ++ rest) rest (unit o).shape.kinds)
    (options : List α) :
    Reads grammar caseSensitive (room + 1) (.element p.element)
      ((StatementText.block k (options.map unit)).pieces ++ rest) rest
      ((StatementText.block k (options.map unit)).shapes.flatMap UnitShape.kinds) := by
  have hrepeated := (reads_repeated follows (fun o => (unit o).pieces)
    (fun o => (unit o).shape.kinds) hbrace hend hfollows hoption (by simp [UnitText.pieces])
    options).1
  have hblock := reads_single hp
    (reads_cons (reads_word (k.isLiteral_text))
      (reads_cons reads_openingBrace (reads_cons hrepeated (reads_last reads_closingBrace))))
  have hpieces : (StatementText.block k (options.map unit)).pieces ++ rest =
      .word k.text.toList :: .mark '\x7b' ::
        (options.flatMap (fun o => (unit o).pieces) ++ .mark '\x7d' :: rest) := by
    simp [StatementText.pieces, List.flatMap_map]
  have hkinds : (StatementText.block k (options.map unit)).shapes.flatMap UnitShape.kinds =
      options.flatMap fun o => (unit o).shape.kinds := by
    simp [StatementText.shapes, List.flatMap_map]
  rw [hpieces, hkinds]
  simpa [literalKinds] using hblock

theorem reads_clearBlock (options : List ClearOption) :
    Reads grammar caseSensitive (room + 6) (.element Production.clearSection.element)
      ((StatementText.block .clear (options.map ClearOption.unit)).pieces ++ rest) rest
      ((StatementText.block .clear (options.map ClearOption.unit)).shapes.flatMap
        UnitShape.kinds) := by
  apply reads_optionBlock rfl ClearOption.unit EndsBuffers
  · exact ⟨_, _, rfl, .inl rfl⟩
  · exact fails_of_actions rfl (by decide)
  · intro o rest _
    refine ⟨_, _, rfl, .inr ⟨o.unit.action, ?_, rfl⟩⟩
    cases o <;> simp [ClearOption.unit, clearOptions]
  · intro o rest hrest
    exact reads_clearOption o hrest

theorem reads_stencilBlock (options : List StencilOption) :
    Reads grammar caseSensitive (room + 5) (.element Production.stencilSection.element)
      ((StatementText.block .stencil (options.map StencilOption.unit)).pieces ++ rest) rest
      ((StatementText.block .stencil (options.map StencilOption.unit)).shapes.flatMap
        UnitShape.kinds) := by
  apply reads_optionBlock rfl StencilOption.unit fun _ => True
  · trivial
  · exact fails_of_actions rfl (by decide)
  · exact fun _ _ _ => trivial
  · intro o rest _
    exact reads_stencilOption o

end Compositing.Script
