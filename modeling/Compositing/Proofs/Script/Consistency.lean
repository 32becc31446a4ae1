import Compositing.Proofs.Script.Nesting
import Compositing.Proofs.Script.Shape

/-! # Consistency

    The grammar and the actions agree: a unit with the arguments its action
    takes is read to a command or refused, and no inconsistency is found.
    There is one exception.  `input` is followed by a mode in a target and by a
    slot and a texture in a pass, but the grammar does not know where it
    stands; a slot in a target is found inconsistent.

    What a reading takes and leaves is said by `Reading.Consistent`, a triple
    of what the arguments are before, the reading and what they are after. -/

namespace Compositing.Script

theorem ofId?_id (k : Keyword) : Keyword.ofId? k.id = some k := by
  cases k <;> rfl

/-! ## Readings -/

/-- The arguments are of these kinds. -/
def Arguments.Have (kinds : List Token.Kind) (arguments : Arguments) : Prop :=
  arguments.tokens.map (·.kind) = kinds

namespace Reading
variable {α β : Type} {P Q R : Arguments → Prop}

/-- On arguments with `P` the reading finds no inconsistency, and if it has a value it leaves
    arguments with `Q`. -/
def Consistent (P : Arguments → Prop) (reading : Reading α) (Q : Arguments → Prop) : Prop :=
  ∀ arguments, P arguments →
    match reading.run arguments with
    | (.ok _, rest) => Q rest
    | (.error failure, _) => ∃ refusal, failure = .refused refusal

theorem consistent_pure (value : α) : Consistent P (pure value : Reading α) P :=
  fun _ h => h

theorem consistent_refuse (refusal : Refusal) :
    Consistent P (throw (.refused refusal) : Reading α) Q :=
  fun _ _ => ⟨refusal, rfl⟩

theorem consistent_bind {first : Reading α} {next : α → Reading β}
    (hfirst : Consistent P first Q) (hnext : ∀ value, Consistent Q (next value) R) :
    Consistent P (first >>= next) R := by
  intro arguments hP
  have hfirst := hfirst arguments hP
  rw [run_bind]
  rcases hrun : first.run arguments with ⟨failure | value, rest⟩
  · rw [hrun] at hfirst
    exact hfirst
  · rw [hrun] at hfirst
    exact hnext value rest hfirst

theorem consistent_ofArguments {read : Arguments → Except ArgumentError (α × Arguments)}
    (h : ∀ arguments value rest, P arguments → read arguments = .ok (value, rest) → Q rest) :
    Consistent P (ofArguments read) Q := by
  intro arguments hP
  show match ofArguments read arguments with
    | (.ok _, rest) => Q rest
    | (.error failure, _) => ∃ refusal, failure = .refused refusal
  unfold ofArguments
  split
  · rename_i heq
    split at heq
    · rename_i hread
      cases heq
      exact h _ _ _ hP hread
    · cases heq
  · rename_i heq
    split at heq
    · cases heq
    · cases heq
      exact ⟨_, rfl⟩

/-! ## Arguments -/

section
variable {kind : Token.Kind} {kinds : List Token.Kind}

/-- What is left after the first of some arguments. -/
theorem have_tail {arguments : Arguments} {t : Token} {rest : List Token}
    (h : Arguments.Have (kind :: kinds) arguments) (ht : arguments.tokens = t :: rest) :
    t.kind = kind ∧ Arguments.Have kinds { arguments with tokens := rest } := by
  unfold Arguments.Have at h
  rw [ht, List.map_cons, List.cons.injEq] at h
  exact h

theorem consistent_label :
    Consistent (Arguments.Have (kind :: kinds)) label (Arguments.Have kinds) := by
  refine consistent_ofArguments fun arguments value rest hhave hread => ?_
  unfold Arguments.nextLabel at hread
  split at hread
  · cases hread
  · rename_i htokens
    cases hread
    exact (have_tail hhave htokens).2
  · cases hread

theorem consistent_number :
    Consistent (Arguments.Have (kind :: kinds)) number (Arguments.Have kinds) := by
  refine consistent_ofArguments fun arguments value rest hhave hread => ?_
  unfold Arguments.nextNumber at hread
  split at hread
  · cases hread
  · rename_i htokens
    cases hread
    exact (have_tail hhave htokens).2
  · cases hread

theorem consistent_integer32 :
    Consistent (Arguments.Have (kind :: kinds)) integer32 (Arguments.Have kinds) :=
  consistent_bind consistent_number fun _ => consistent_pure _

theorem consistent_integer8 :
    Consistent (Arguments.Have (kind :: kinds)) integer8 (Arguments.Have kinds) :=
  consistent_bind consistent_number fun _ => consistent_pure _

theorem consistent_single :
    Consistent (Arguments.Have (kind :: kinds)) single (Arguments.Have kinds) :=
  consistent_bind consistent_number fun _ => consistent_pure _

/-- A keyword is read as itself. -/
theorem run_keyword {k : Keyword} (line : Nat) {arguments : Arguments}
    (h : Arguments.Have (k.kind :: kinds) arguments) :
    ∃ rest, (keyword line).run arguments = (.ok k, rest) ∧ Arguments.Have kinds rest := by
  obtain ⟨tokens, endLine⟩ := arguments
  obtain ⟨t, rest, rfl, ht, hrest⟩ := List.map_eq_cons_iff.mp h
  obtain ⟨_, offset, tokenLine⟩ := t
  cases ht
  refine ⟨⟨rest, endLine⟩, ?_, hrest⟩
  unfold keyword
  rw [run_bind]
  simp only [ofArguments, Arguments.nextId, ExceptT.run, Token.id, ofId?_id]
  rfl

/-- A keyword that stands for a value is read as it. -/
theorem consistent_valueOf {role : Keyword.Role} {value? : Keyword → Option α} {line : Nat}
    {k : Keyword} (hvalue : (value? k).isSome) :
    Consistent (Arguments.Have (k.kind :: kinds)) (valueOf role value? line)
      (Arguments.Have kinds) := by
  obtain ⟨value, hvalue⟩ := Option.isSome_iff_exists.mp hvalue
  intro arguments hhave
  obtain ⟨rest, hrun, hrest⟩ := run_keyword line hhave
  have h : (valueOf role value? line).run arguments = (.ok value, rest) := by
    unfold valueOf
    rw [run_bind, hrun]
    simp only [hvalue]
    rfl
  rw [h]
  exact hrest

theorem consistent_takesValue {role : Keyword.Role} {value? : Keyword → Option α} {line : Nat}
    (h : Keyword.TakesValue value? kinds) :
    Consistent (Arguments.Have kinds) (valueOf role value? line) (Arguments.Have []) := by
  obtain ⟨k, hk, rfl⟩ := h
  exact consistent_valueOf hk

/-- A length is the keyword, which is taken, or a number. -/
theorem run_lengthOr (k : Keyword) (arguments : Arguments) :
    (lengthOr k).run arguments =
      if arguments.peekId? = some k.id then
        (.ok 0, { arguments with tokens := arguments.tokens.drop 1 })
      else integer32.run arguments := by
  have h : (lengthOr k).run arguments =
      (if (arguments.takeIf k.id).1 then pure 0 else integer32 : Reading UInt32).run
        (arguments.takeIf k.id).2 := rfl
  rw [h, Arguments.takeIf]
  split <;> rfl

/-- A length takes one argument, the keyword or a number. -/
theorem consistent_lengthOr {k : Keyword} :
    Consistent (Arguments.Have (kind :: kinds)) (lengthOr k) (Arguments.Have kinds) := by
  intro arguments hhave
  rw [run_lengthOr]
  by_cases hpeek : arguments.peekId? = some k.id
  · rw [if_pos hpeek]
    obtain ⟨t, rest, htokens, _, hrest⟩ := List.map_eq_cons_iff.mp hhave
    rw [htokens]
    exact hrest
  · rw [if_neg hpeek]
    exact consistent_integer32 arguments hhave

/-- A list of frame buffers is taken whole. -/
theorem consistent_buffers {line : Nat} {ks : List Keyword}
    (hks : ∀ k ∈ ks, (Keyword.buffer? k).isSome) :
    Consistent (Arguments.Have (ks.map Keyword.kind)) (buffers line ks.length)
      (Arguments.Have []) := by
  induction ks with
  | nil => exact consistent_pure _
  | cons k ks ih =>
    rw [List.forall_mem_cons] at hks
    exact consistent_bind (consistent_valueOf hks.1) fun _ =>
      consistent_bind (ih hks.2) fun _ => consistent_pure _

end
end Reading

/-! ## Units -/

open Reading

section
variable {context : Context} {token : Token} {P : Arguments → Prop}

/-- The object of the section is found if it is there. -/
theorem consistent_objectOf {within : Section} (hnested : context.Nested)
    (hwithin : within ≠ .none) : Consistent P (objectOf context token within) P := by
  by_cases hin : context.innermost = within
  · obtain ⟨handle, hhandle⟩ := exists_handle hnested (hin ▸ hwithin)
    have h : objectOf context token within = (pure handle : Reading Handle) := by
      unfold objectOf requireIn handleOf Context.handle
      rw [if_pos hin, ← hin, hhandle]
      rfl
    rw [h]
    exact consistent_pure handle
  · have h : objectOf context token within = (throw (misplaced context token)) := by
      unfold objectOf requireIn
      rw [if_neg hin]
      rfl
    rw [h]
    exact consistent_refuse _

theorem consistent_setPass (hnested : context.Nested) (attr : PassAttribute) :
    Consistent P (setPass context token attr) P :=
  consistent_bind (consistent_objectOf hnested (by decide)) fun _ => consistent_pure _

theorem consistent_setTarget (hnested : context.Nested) (attr : TargetAttribute) :
    Consistent P (setTarget context token attr) P := by
  have hset : Consistent P
      (objectOf context token .target >>= fun target =>
        pure (Command.set target (.target attr))) P :=
    consistent_bind (consistent_objectOf hnested (by decide)) fun _ => consistent_pure _
  by_cases hin : context.innermost = .target
  · have hobject : objectOf context token .target = handleOf context token .target := by
      unfold objectOf requireIn
      rw [if_pos hin]
      rfl
    rw [hobject] at hset
    unfold setTarget requireIn
    rw [if_pos hin]
    split
    · exact hset
    · exact hset
    · exact consistent_refuse _
  · have h : setTarget context token attr = (throw (misplaced context token)) := by
      unfold setTarget requireIn
      rw [if_neg hin]
      rfl
    rw [h]
    exact consistent_refuse _

/-- The unit is an `input` with a slot and a texture. -/
def IsSlotInput (action : Action) (kinds : List Token.Kind) : Prop :=
  action = .input ∧ ∃ x s, kinds = [.number x, .label s]

/-- The unit gives a slot to a target. -/
def IsSlotOfTarget (context : Context) (action : Action) (kinds : List Token.Kind) : Prop :=
  context.innermost = .target ∧ IsSlotInput action kinds

/-- An `input` with a mode, or with a slot and a texture, unless the latter stands in a target. -/
theorem consistent_readInput {kinds : List Token.Kind} (hnested : context.Nested)
    (htakes : Action.Takes .input kinds)
    (hslot : ¬ IsSlotOfTarget context .input kinds) :
    Consistent (Arguments.Have kinds) (readInput context token) (Arguments.Have []) := by
  unfold readInput
  split
  · -- in a target only a mode is left by `hslot`
    rename_i hin
    rcases htakes with hmode | ⟨x, s, rfl⟩
    · exact consistent_bind (consistent_takesValue hmode) fun _ =>
        consistent_setTarget hnested _
    · exact absurd ⟨hin, rfl, x, s, rfl⟩ hslot
  · rcases htakes with ⟨k, _, rfl⟩ | ⟨x, s, rfl⟩
    · -- a mode is no slot, so nothing more is read
      intro arguments hhave
      obtain ⟨tokens, endLine⟩ := arguments
      obtain ⟨t, rest, rfl, ht, _⟩ := List.map_eq_cons_iff.mp hhave
      obtain ⟨_, offset, line⟩ := t
      cases ht
      exact ⟨.argument (.unexpectedKind .number k.id), rfl⟩
    · exact consistent_bind consistent_integer32 fun _ =>
        consistent_bind consistent_label fun _ => consistent_setPass hnested _
  · exact consistent_refuse _

/-- The frame buffers of a `buffers`: as many are read as there are arguments. -/
theorem consistent_readBuffers {ks : List Keyword} (hnested : context.Nested)
    (hks : ∀ k ∈ ks, (Keyword.buffer? k).isSome) :
    Consistent (Arguments.Have (ks.map Keyword.kind)) (Command.read context token .buffers)
      (Arguments.Have []) := by
  intro arguments hhave
  have hlength : arguments.remaining = ks.length := by
    have h := congrArg List.length hhave
    rwa [List.length_map, List.length_map] at h
  have hread : (Command.read context token .buffers).run arguments =
      (buffers token.line arguments.remaining >>= fun found =>
        setPass context token (.clearBuffers found)).run arguments := rfl
  rw [hread, hlength]
  have hconsistent : Consistent (Arguments.Have (ks.map Keyword.kind))
      (buffers token.line ks.length >>= fun found => setPass context token (.clearBuffers found))
      (Arguments.Have []) :=
    consistent_bind (consistent_buffers hks) fun _ => consistent_setPass hnested _
  exact hconsistent arguments hhave

theorem consistent_readColour {r g b a : Token.Kind} :
    Consistent (Arguments.Have [r, g, b, a]) readColour (Arguments.Have []) :=
  consistent_bind consistent_single fun _ => consistent_bind consistent_single fun _ =>
    consistent_bind consistent_single fun _ => consistent_bind consistent_single fun _ =>
    consistent_pure _

/-- A unit with the arguments its action takes is read to a command, which takes all of them, or
    refused, unless it gives a slot to a target. -/
theorem consistent_read (token : Token) {action : Action} {kinds : List Token.Kind}
    (hnested : context.Nested) (htakes : action.Takes kinds)
    (hslot : ¬ IsSlotOfTarget context action kinds) :
    Consistent (Arguments.Have kinds) (Command.read context token action)
      (Arguments.Have []) := by
  cases action with
  -- the structure of a script
  | closeBrace =>
    show Consistent _ (if context.innermost = .none then throw (.refused .strayBrace)
      else pure Command.close) _
    split
    · exact consistent_refuse _
    · rw [show kinds = [] from htakes]
      exact consistent_pure _
  | compositor =>
    obtain ⟨s, rfl⟩ := htakes
    refine consistent_bind (Q := Arguments.Have [.label s]) ?_ fun _ =>
      consistent_bind consistent_label fun _ => consistent_pure _
    unfold requireIn
    split
    · exact consistent_pure _
    · exact consistent_refuse _
  | technique | targetOutput =>
    rw [show kinds = [] from htakes]
    exact consistent_bind (consistent_objectOf hnested (by decide)) fun _ => consistent_pure _
  | texture =>
    obtain ⟨s, width, height, format, _, _, hformat, rfl⟩ := htakes
    exact consistent_bind (consistent_objectOf hnested (by decide)) fun _ =>
      consistent_bind consistent_label fun _ => consistent_bind consistent_lengthOr fun _ =>
      consistent_bind consistent_lengthOr fun _ =>
      consistent_bind (consistent_valueOf hformat) fun _ => consistent_pure _
  | target =>
    obtain ⟨s, rfl⟩ := htakes
    exact consistent_bind (consistent_objectOf hnested (by decide)) fun _ =>
      consistent_bind consistent_label fun _ => consistent_pure _
  | pass =>
    exact consistent_bind (consistent_objectOf hnested (by decide)) fun _ =>
      consistent_bind (consistent_takesValue htakes) fun _ => consistent_pure _
  -- what is said of a target
  | input => exact consistent_readInput hnested htakes hslot
  | onlyInitial =>
    exact consistent_bind (consistent_takesValue htakes) fun _ =>
      consistent_setTarget hnested _
  | visibilityMask =>
    obtain ⟨x, rfl⟩ := htakes
    exact consistent_bind consistent_integer32 fun _ => consistent_setTarget hnested _
  | lodBias =>
    obtain ⟨x, rfl⟩ := htakes
    exact consistent_bind consistent_single fun _ => consistent_setTarget hnested _
  | materialScheme =>
    obtain ⟨s, rfl⟩ := htakes
    exact consistent_bind consistent_label fun _ => consistent_setTarget hnested _
  -- what is said of a pass
  | material =>
    obtain ⟨s, rfl⟩ := htakes
    exact consistent_bind consistent_label fun _ => consistent_setPass hnested _
  | firstRenderQueue | lastRenderQueue =>
    obtain ⟨x, rfl⟩ := htakes
    exact consistent_bind consistent_integer8 fun _ => consistent_setPass hnested _
  | identifier | stencilValue | refValue | mask =>
    obtain ⟨x, rfl⟩ := htakes
    exact consistent_bind consistent_integer32 fun _ => consistent_setPass hnested _
  | depthValue =>
    obtain ⟨x, rfl⟩ := htakes
    exact consistent_bind consistent_single fun _ => consistent_setPass hnested _
  | buffers =>
    obtain ⟨ks, hks, rfl⟩ := htakes
    exact consistent_readBuffers hnested hks
  | colourValue =>
    obtain ⟨r, g, b, a, rfl⟩ := htakes
    exact consistent_bind consistent_readColour fun _ => consistent_setPass hnested _
  | check | compFunc | failOp | depthFailOp | passOp | twoSided =>
    exact consistent_bind (consistent_takesValue htakes) fun _ =>
      consistent_setPass hnested _

/-- A slot in a target is found inconsistent: it is no keyword. -/
theorem read_slotOfTarget (token : Token) {action : Action} (arguments : Arguments)
    (h : IsSlotOfTarget context action (arguments.tokens.map (·.kind))) :
    ∃ rest, (Command.read context token action).run arguments =
      (.error (.inconsistent ⟨token.line, .notKeyword Token.numberId⟩), rest) := by
  obtain ⟨hin, rfl, x, s, hkinds⟩ := h
  obtain ⟨tokens, endLine⟩ := arguments
  obtain ⟨t, rest, rfl, ht, _⟩ := List.map_eq_cons_iff.mp hkinds
  obtain ⟨_, offset, line⟩ := t
  cases ht
  refine ⟨⟨rest, endLine⟩, ?_⟩
  show (readInput context token).run _ = _
  unfold readInput
  rw [hin]
  rfl

end
end Compositing.Script
