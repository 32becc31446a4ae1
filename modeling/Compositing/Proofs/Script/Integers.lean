import Compositing.Proofs.Language.Running
import Compositing.Proofs.Number.Whole
import Compositing.Proofs.Recognition.Numerals
import Compositing.Proofs.Script.Atomicity
import Compositing.Proofs.Script.Consistency

/-! # Options that are integers

    An integer is written as a number, and the number is cut off at an integer
    of the size of the field.  The ten options do this alike: each says which
    argument its integer is, how large it may be and which attribute it goes
    into.

    What is stored for a literal depends on the number that the literal is read
    to, and on it alone.  It is the integer that was written, as long as the
    field has room for it, and otherwise the nearest one that the field has. -/

namespace Compositing.Script

/-! ## The options -/

/-- An option of a script with an integer for a value. -/
inductive IntegerOption where
  | textureWidth
  | textureHeight
  | visibilityMask
  | inputSlot
  | identifier
  | firstRenderQueue
  | lastRenderQueue
  | stencilValue
  | refValue
  | stencilMask

namespace IntegerOption

/-- The action of the option. -/
def action : IntegerOption → Action
  | textureWidth | textureHeight => .texture
  | visibilityMask => .visibilityMask
  | inputSlot => .input
  | identifier => .identifier
  | firstRenderQueue => .firstRenderQueue
  | lastRenderQueue => .lastRenderQueue
  | stencilValue => .stencilValue
  | refValue => .refValue
  | stencilMask => .mask

/-- Which argument of the action the integer is. -/
def index : IntegerOption → Nat
  | textureWidth => 1
  | textureHeight => 2
  | _ => 0

/-- The greatest integer that the field has room for. -/
def most : IntegerOption → Nat
  | firstRenderQueue | lastRenderQueue => UInt8.size - 1
  | _ => UInt32.size - 1

/-- The integer of an attribute that the option sets. -/
def integer? : IntegerOption → Attribute → Option Nat
  | textureWidth, .texture texture => some texture.width.toNat
  | textureHeight, .texture texture => some texture.height.toNat
  | visibilityMask, .target (.visibilityMask mask) => some mask.toNat
  | inputSlot, .pass (.input slot _) => some slot.toNat
  | identifier, .pass (.identifier id) => some id.toNat
  | firstRenderQueue, .pass (.firstRenderQueue queue) => some queue.toNat
  | lastRenderQueue, .pass (.lastRenderQueue queue) => some queue.toNat
  | stencilValue, .pass (.clearStencil value) => some value.toNat
  | refValue, .pass (.stencilRefValue value) => some value.toNat
  | stencilMask, .pass (.stencilMask mask) => some mask.toNat
  | _, _ => none

/-- There are doubles for all integers of a field. -/
theorem most_lt (o : IntegerOption) : o.most < 2 ^ 53 := by
  cases o <;> decide

end IntegerOption

/-! ## Reading an integer -/

namespace Reading
variable {α β : Type} {P : Token → α → Prop} {Q : Token → β → Prop}

/-- A reading that succeeds takes one argument, and `P` relates the token to the value. -/
def TakesOne (reading : Reading α) (P : Token → α → Prop) : Prop :=
  ∀ arguments value rest, reading.run arguments = (.ok value, rest) →
    ∃ t, arguments.tokens = t :: rest.tokens ∧ P t value

/-- The number of the token, cut off at the greatest integer that there is room for. -/
def IsCutOff (toNat : α → Nat) (most : Nat) (t : Token) (n : α) : Prop :=
  ∀ x, t.kind = .number x → toNat n = x.truncate most

theorem takesOne_ofArguments {read : Arguments → Except ArgumentError (α × Arguments)}
    (h : ∀ arguments value rest, read arguments = .ok (value, rest) →
      ∃ t, arguments.tokens = t :: rest.tokens ∧ P t value) :
    TakesOne (ofArguments read) P := by
  intro arguments value rest hrun
  have hrun : ofArguments read arguments = (.ok value, rest) := hrun
  unfold ofArguments at hrun
  split at hrun
  · rename_i hread
    cases hrun
    exact h _ _ _ hread
  · cases hrun

/-- A reading that takes nothing more goes on with what was taken. -/
theorem TakesOne.bind {first : Reading β} {next : β → Reading α} (h : TakesOne first Q)
    (hnext : ∀ t v arguments value rest, Q t v → (next v).run arguments = (.ok value, rest) →
      rest = arguments ∧ P t value) : TakesOne (first >>= next) P := by
  intro arguments value rest hrun
  obtain ⟨v, between, hfirst, hrest⟩ := ok_of_bind hrun
  obtain ⟨t, htokens, ht⟩ := h _ _ _ hfirst
  obtain ⟨rfl, hvalue⟩ := hnext _ _ _ _ _ ht hrest
  exact ⟨t, htokens, hvalue⟩

theorem takesOne_id : TakesOne (ofArguments Arguments.nextId) fun t id => t.id = id := by
  refine takesOne_ofArguments fun arguments id rest hread => ?_
  unfold Arguments.nextId at hread
  split at hread
  · cases hread
  · rename_i htokens
    cases hread
    exact ⟨_, htokens, rfl⟩

theorem takesOne_label : TakesOne label fun _ _ => True := by
  refine takesOne_ofArguments fun arguments value rest hread => ?_
  unfold Arguments.nextLabel at hread
  split at hread
  · cases hread
  · rename_i htokens
    cases hread
    exact ⟨_, htokens, trivial⟩
  · cases hread

theorem takesOne_number : TakesOne number fun t x => t.kind = .number x := by
  refine takesOne_ofArguments fun arguments value rest hread => ?_
  unfold Arguments.nextNumber at hread
  split at hread
  · cases hread
  · rename_i htokens
    cases hread
    exact ⟨_, htokens, rfl⟩
  · cases hread

/-- A value that is made of a number. -/
theorem takesOne_ofNumber {toNat : α → Nat} {most : Nat} {value : Number → α}
    (h : ∀ x, toNat (value x) = x.truncate most) :
    TakesOne (number >>= fun x => pure (value x)) (IsCutOff toNat most) := by
  refine takesOne_number.bind fun t x arguments n rest hkind hpure => ?_
  obtain ⟨rfl, hrest⟩ := ok_of_pure hpure
  refine ⟨hrest, fun y hy => ?_⟩
  rw [hkind] at hy
  cases hy
  exact h x

theorem takesOne_integer32 :
    TakesOne integer32 (IsCutOff UInt32.toNat (UInt32.size - 1)) :=
  takesOne_ofNumber Number.toNat_integer32

theorem takesOne_integer8 : TakesOne integer8 (IsCutOff UInt8.toNat (UInt8.size - 1)) :=
  takesOne_ofNumber Number.toNat_integer8

/-- A keyword that stands for a length of 0 is no number. -/
theorem takesOne_lengthOr {k : Keyword} (hk : k.id ≠ Token.numberId) :
    TakesOne (lengthOr k) (IsCutOff UInt32.toNat (UInt32.size - 1)) := by
  intro arguments n rest hrun
  rw [run_lengthOr] at hrun
  by_cases hpeek : arguments.peekId? = some k.id
  · rw [if_pos hpeek] at hrun
    cases hrun
    obtain ⟨t, htokens, hid⟩ := Option.map_eq_some_iff.mp hpeek
    obtain ⟨tokens, htokens⟩ := List.head?_eq_some_iff.mp htokens
    refine ⟨t, by simp [htokens], fun x hx => ?_⟩
    rw [Token.id, hx] at hid
    exact absurd hid.symm hk
  · rw [if_neg hpeek] at hrun
    exact takesOne_integer32 _ _ _ hrun

/-- A number is no keyword. -/
theorem takesOne_keyword (line : Nat) :
    TakesOne (keyword line) fun t _ => ∀ x, t.kind ≠ .number x := by
  refine takesOne_id.bind fun t id arguments k rest hid hk => ⟨?_, fun x hx => ?_⟩
  · split at hk
    · exact (ok_of_pure hk).2
    · exact (not_ok_of_throw hk).elim
  · rw [← hid, Token.id, hx] at hk
    exact not_ok_of_throw hk

theorem takesOne_valueOf (role : Keyword.Role) (value? : Keyword → Option α) (line : Nat) :
    TakesOne (valueOf role value? line) fun t _ => ∀ x, t.kind ≠ .number x := by
  refine (takesOne_keyword line).bind fun t k arguments value rest hno hvalue => ⟨?_, hno⟩
  split at hvalue
  · exact (ok_of_pure hvalue).2
  · exact (not_ok_of_throw hvalue).elim

end Reading

section
variable {α : Type} {P : Token → α → Prop} {context : Context} {token t : Token} {within : Section}
  {arguments rest : Arguments} {command : Command} {x : Number}

/-- Finding an object takes no argument. -/
theorem rest_of_objectOf {handle : Handle}
    (h : (objectOf context token within).run arguments = (.ok handle, rest)) :
    rest = arguments := by
  obtain ⟨_, between, hrequire, hof⟩ := Reading.ok_of_bind h
  have hbetween : between = arguments := by
    unfold requireIn at hrequire
    split at hrequire
    · exact (Reading.ok_of_pure hrequire).2
    · exact (Reading.not_ok_of_throw hrequire).elim
  unfold handleOf at hof
  split at hof
  · exact (Reading.ok_of_pure hof).2.trans hbetween
  · exact (Reading.not_ok_of_throw hof).elim

/-- A command for an attribute with the integer of the option, about the innermost object. -/
def IntegerOption.AsksFor (o : IntegerOption) (context : Context) (n : Nat) (command : Command) :
    Prop :=
  ∃ handle attr, context.handle? context.innermost = some handle ∧
    command = .set handle attr ∧ o.integer? attr = some n

/-- An action whose first argument is the integer. -/
theorem asksFor_of_first {o : IntegerOption} {reading : Reading α} {toNat : α → Nat}
    {next : α → Reading Command}
    (htakes : Reading.TakesOne reading (Reading.IsCutOff toNat o.most))
    (hnext : ∀ n between command, (next n).run between = (.ok command, rest) →
      o.AsksFor context (toNat n) command)
    (h : (reading >>= next).run arguments = (.ok command, rest))
    (ht : arguments.tokens[0]? = some t) (hx : t.kind = .number x) :
    o.AsksFor context (x.truncate o.most) command := by
  obtain ⟨n, between, hread, hrest⟩ := Reading.ok_of_bind h
  obtain ⟨t', htokens, hcut⟩ := htakes _ _ _ hread
  rw [htokens] at ht
  cases ht
  rw [← hcut x hx]
  exact hnext n between command hrest

theorem asksFor_setPass {o : IntegerOption} {attr : PassAttribute} {n : Nat}
    (hattr : o.integer? (.pass attr) = some n)
    (h : (setPass context token attr).run arguments = (.ok command, rest)) :
    o.AsksFor context n command := by
  obtain ⟨hin, pass, hhandle, rfl⟩ := set_of_setPass h
  exact ⟨pass, _, hin ▸ hhandle, rfl, hattr⟩

theorem asksFor_setTarget {o : IntegerOption} {attr : TargetAttribute} {n : Nat}
    (hattr : o.integer? (.target attr) = some n)
    (h : (setTarget context token attr).run arguments = (.ok command, rest)) :
    o.AsksFor context n command := by
  obtain ⟨hin, target, hhandle, _, rfl⟩ := set_of_setTarget h
  exact ⟨target, _, hin ▸ hhandle, rfl, hattr⟩

/-- The slot of an input is only read in a pass. -/
theorem asksFor_readInput (h : (readInput context token).run arguments = (.ok command, rest))
    (ht : arguments.tokens[0]? = some t) (hx : t.kind = .number x) :
    IntegerOption.inputSlot.AsksFor context (x.truncate (UInt32.size - 1)) command := by
  unfold readInput at h
  split at h
  · obtain ⟨mode, _, hmode, _⟩ := Reading.ok_of_bind h
    obtain ⟨t', htokens, hno⟩ := Reading.takesOne_valueOf _ _ _ _ _ _ hmode
    rw [htokens] at ht
    cases ht
    exact absurd hx (hno x)
  · refine asksFor_of_first Reading.takesOne_integer32 (fun slot between command h => ?_) h ht hx
    obtain ⟨texture, _, _, hset⟩ := Reading.ok_of_bind h
    exact asksFor_setPass rfl hset
  · exact (Reading.not_ok_of_throw h).elim

/-- A texture has its lengths behind its name. -/
theorem texture_of_readTexture
    (h : (readTexture context token).run arguments = (.ok command, rest)) :
    ∃ handle texture label width height more,
      context.handle? context.innermost = some handle ∧ command = .set handle (.texture texture) ∧
      arguments.tokens = label :: width :: height :: more ∧
      Reading.IsCutOff UInt32.toNat (UInt32.size - 1) width texture.width ∧
      Reading.IsCutOff UInt32.toNat (UInt32.size - 1) height texture.height := by
  obtain ⟨technique, _, hobject, h⟩ := Reading.ok_of_bind h
  obtain ⟨hin, hhandle⟩ := place_of_objectOf hobject
  have hrest := rest_of_objectOf hobject
  obtain ⟨name, _, hname, h⟩ := Reading.ok_of_bind h
  obtain ⟨width, _, hwidth, h⟩ := Reading.ok_of_bind h
  obtain ⟨height, more, hheight, h⟩ := Reading.ok_of_bind h
  obtain ⟨format, _, _, hpure⟩ := Reading.ok_of_bind h
  obtain ⟨t₁, htokens₁, _⟩ := Reading.takesOne_label _ _ _ hname
  obtain ⟨t₂, htokens₂, hcut₂⟩ := Reading.takesOne_lengthOr (by decide) _ _ _ hwidth
  obtain ⟨t₃, htokens₃, hcut₃⟩ := Reading.takesOne_lengthOr (by decide) _ _ _ hheight
  refine ⟨technique, ⟨name, width, height, format⟩, t₁, t₂, t₃, more.tokens, hin ▸ hhandle,
    (Reading.ok_of_pure hpure).1, ?_, hcut₂, hcut₃⟩
  rw [← hrest, htokens₁, htokens₂, htokens₃]

/-- A unit that is read asks for its number, cut off at the greatest integer of the field. -/
theorem IntegerOption.asksFor_of_read (o : IntegerOption)
    (h : (Command.read context token o.action).run arguments = (.ok command, rest))
    (ht : arguments.tokens[o.index]? = some t) (hx : t.kind = .number x) :
    o.AsksFor context (x.truncate o.most) command := by
  cases o with
  | textureWidth =>
    obtain ⟨handle, texture, _, _, _, _, hhandle, rfl, htokens, hcut, _⟩ :=
      texture_of_readTexture h
    rw [htokens] at ht
    cases ht
    exact ⟨handle, _, hhandle, rfl, congrArg some (hcut x hx)⟩
  | textureHeight =>
    obtain ⟨handle, texture, _, _, _, _, hhandle, rfl, htokens, _, hcut⟩ :=
      texture_of_readTexture h
    rw [htokens] at ht
    cases ht
    exact ⟨handle, _, hhandle, rfl, congrArg some (hcut x hx)⟩
  | visibilityMask =>
    exact asksFor_of_first Reading.takesOne_integer32
      (fun _ _ _ hset => asksFor_setTarget rfl hset) h ht hx
  | inputSlot => exact asksFor_readInput h ht hx
  | identifier | stencilValue | refValue | stencilMask =>
    exact asksFor_of_first Reading.takesOne_integer32
      (fun _ _ _ hset => asksFor_setPass rfl hset) h ht hx
  | firstRenderQueue | lastRenderQueue =>
    exact asksFor_of_first Reading.takesOne_integer8
      (fun _ _ _ hset => asksFor_setPass rfl hset) h ht hx

end

/-! ## Setting an integer -/

namespace Session

/-- A unit outside skipped blocks that is answered without an error or a report was read to a
    command that the builder granted. -/
theorem granted_of_unreported {σ : Type} {b : Builder σ} {s s' : Session σ} {action : Action}
    {token : Token} {arguments rest : Arguments} {flow : Flow}
    (hskip : s.context.skipDepth = 0)
    (hdispatch : s.dispatch b action token arguments = (.ok flow, rest, s'))
    (hreport : s'.diagnostics = s.diagnostics) :
    ∃ command, (Command.read s.context token action).run arguments = (.ok command, rest) ∧
      s.execute b command = (.ok (), s') := by
  have hd := dispatched b s action token arguments
  rw [hdispatch] at hd
  -- a refusal would be one more report
  cases hd with
  | skipped hskip' => omega
  | unread _ _ =>
    rw [refuse_diagnostics] at hreport
    simp at hreport
  | ungranted _ _ hexecute =>
    rw [refuse_diagnostics, (execute_error hexecute).diagnostics] at hreport
    simp at hreport
  | done _ hread hexecute => exact ⟨_, hread, hexecute⟩

variable {s s' : Session Registry} {handle : Handle} {place : Place} {attr : Attribute}

/-- The innermost open block stands for an object. -/
theorem Placed.exists_denotes (h : s.Placed) (hopen : s.context.innermost ≠ .none) :
    ∃ place, s.context.Denotes s.builder s.context.innermost place := by
  cases hin : s.context.innermost with
  | none => exact absurd hin hopen
  | compositor =>
    obtain ⟨i, _, hdenotes, _⟩ := h.follows.compositor (by rw [hin]; decide)
    exact ⟨_, hdenotes⟩
  | technique =>
    obtain ⟨i, t, _, hdenotes⟩ := h.follows.technique (by rw [hin]; decide)
    exact ⟨_, hdenotes⟩
  | target =>
    obtain ⟨i, t, slot, _, hdenotes, _⟩ := h.follows.target (by rw [hin]; decide)
    exact ⟨_, hdenotes⟩
  | pass =>
    obtain ⟨i, t, slot, p, _, hdenotes⟩ := h.follows.pass (by rw [hin]; decide)
    exact ⟨_, hdenotes⟩

/-- An attribute that was granted is set, and the journal tells of it. -/
theorem changes_of_execute_set (h : s.Placed) (hplace : s.builder.place? handle = some place)
    (hexecute : s.execute Registry.builder (.set handle attr) = (.ok (), s')) :
    s.builder.Changes place attr s'.builder ∧
      s'.journal = .attr handle attr (.ok ()) :: s.journal := by
  have hgrants : ∀ {answer}, s.builder.setAttribute handle attr = answer →
      answer.1 = .ok () ∧ s'.builder = answer.2 ∧
        s'.journal = .attr handle attr answer.1 :: s.journal := by
    rintro _ rfl
    obtain ⟨hok, rfl⟩ := Prod.mk.inj hexecute
    exact ⟨hok, rfl, rfl⟩
  rcases Registry.setAttribute_cases hplace attr with
    ⟨htakes, _⟩ | ⟨_, _, hset⟩ | ⟨hset, _⟩
  · rcases Registry.setAttribute_changes h.sound hplace htakes with
      ⟨r', hset, hchanges⟩ | ⟨_, error, hset⟩
    · obtain ⟨_, hbuilder, hjournal⟩ := hgrants hset
      exact ⟨hbuilder ▸ hchanges, hjournal⟩
    · cases (hgrants hset).1
  · cases (hgrants hset).1
  · cases (hgrants hset).1

end Session

namespace IntegerOption
variable {o : IntegerOption} {s s' : Session Registry} {n : Nat}

/-- An attribute with the integer of the option was asked for and is now one of the object of the
    innermost open block; nothing else was changed in the registry. -/
def Sets (o : IntegerOption) (s s' : Session Registry) (n : Nat) : Prop :=
  ∃ handle place attr object,
    s'.journal = .attr handle attr (.ok ()) :: s.journal ∧ o.integer? attr = some n ∧
      s.context.Denotes s.builder s.context.innermost place ∧
      s.builder.Changes place attr s'.builder ∧
      s'.builder.object? place = some object ∧ object.Has attr

/-- There is only one integer that was set. -/
theorem Sets.unique {m : Nat} (h : o.Sets s s' n) (h' : o.Sets s s' m) : n = m := by
  obtain ⟨handle, _, attr, _, hjournal, hinteger, _⟩ := h
  obtain ⟨handle', _, attr', _, hjournal', hinteger', _⟩ := h'
  rw [hjournal] at hjournal'
  cases hjournal'
  rw [hinteger] at hinteger'
  exact Option.some.inj hinteger'

/-- A command for an integer that is granted sets it. -/
theorem AsksFor.sets {command : Command} (h : o.AsksFor s.context n command) (hplaced : s.Placed)
    (hexecute : s.execute Registry.builder command = (.ok (), s')) : o.Sets s s' n := by
  obtain ⟨handle, attr, hhandle, rfl, hinteger⟩ := h
  have hopen : s.context.innermost ≠ .none := by
    intro hin
    rw [hin] at hhandle
    cases hhandle
  obtain ⟨place, hdenotes⟩ := hplaced.exists_denotes hopen
  obtain ⟨hchanges, hjournal⟩ := Session.changes_of_execute_set hplaced
    (Session.place?_of_denotes hdenotes hhandle) hexecute
  obtain ⟨object, _, hafter, hchange⟩ := hchanges.object
  exact ⟨handle, place, attr, _, hjournal, hinteger, hdenotes, hchanges, hafter, hchange.has⟩

/-! ## Literals that are accepted -/

/-- After any calls of a document over a registry that operations have led to, a unit of one of its
    statements, with the literal for the integer of the option, is met outside skipped blocks,
    answered without an error and not reported. -/
inductive Accepted (o : IntegerOption) (literal : List Char) (before after : Session Registry) :
    Prop where
  | intro {caseSensitive : Bool} {d : Document} {s : Session Registry} {cs : List Call}
    {statement : Statement} {u : ActionUnit Action} {t : Token} {x : Number} {flow : Flow}
    (hreachable : s.builder.Reachable)
    (hstatement : Event.statement statement ∈ (language caseSensitive).events d.text.toList)
    (hunit : u ∈ (ActionUnit.cut (language caseSensitive).lexicon.action? statement.tokens).2)
    (haction : u.action = o.action) (hargument : u.arguments[o.index]? = some t)
    (hnumber : t.kind = .number x) (hspelled : t.Spelled d.text.toList literal)
    (hbefore : before = (s.beginDocument d).hearAll Registry.builder cs)
    (hafter : after = (before.dispatch Registry.builder u.action u.token u.reader).2.2)
    (hskip : before.context.skipDepth = 0)
    (hanswer : (before.dispatch Registry.builder u.action u.token u.reader).1 = .ok flow)
    (hreport : after.diagnostics = before.diagnostics) : Accepted o literal before after

/-- The number of the literal is set, cut off at the greatest integer of the field. -/
theorem Accepted.sets {literal : List Char} (h : o.Accepted literal s s') :
    ∃ x, Number.read? Number.double literal = some x ∧ x ≠ .nan ∧
      o.Sets s s' (x.truncate o.most) := by
  cases h with
  | @intro _ d start cs statement u t x flow hreachable hstatement hunit haction hargument hnumber
      hspelled hbefore hafter hskip hanswer hreport =>
    have hplaced : s.Placed := by
      rw [hbefore]
      exact (Session.hearAll_placed (Session.placed_beginDocument d hreachable) cs).1
    obtain ⟨units, hcut, _⟩ := cut_statement hstatement
    rw [hcut] at hunit
    have htoken : t ∈ statement.tokens := by
      rw [ActionUnit.tokens_of_cut hcut]
      refine List.mem_append_right _ (List.mem_flatMap.mpr ⟨u, hunit, ?_⟩)
      exact List.mem_cons_of_mem _ (List.mem_of_getElem? hargument)
    have hread := Language.read_of_spelled hstatement htoken hnumber hspelled
    obtain ⟨_, _, _, _, hlongest⟩ := hspelled
    obtain ⟨y, hy, hnan⟩ := hlongest.isNumeral.exists_value Number.double
    rw [hread] at hy
    cases hy
    have hdispatch : s.dispatch Registry.builder u.action u.token u.reader =
        (.ok flow, (s.dispatch Registry.builder u.action u.token u.reader).2.1, s') :=
      Prod.ext hanswer (Prod.ext rfl hafter.symm)
    obtain ⟨command, hcommand, hexecute⟩ :=
      Session.granted_of_unreported hskip hdispatch hreport
    rw [haction] at hcommand
    exact ⟨x, hread, hnan, (o.asksFor_of_read hcommand hargument hnumber).sets hplaced hexecute⟩

/-- An accepted literal sets the integer that the number it is read to is cut off at, which is
    within the field and so does not wrap.  If the literal writes an integer, with whatever zeros
    in front and behind a point, this integer is set if the field has room for it, and otherwise
    the greatest one of the field or, if it is negative, 0.  Of two literals, the one that is read
    to the greater number, or to the same, does not set the lesser integer, unless its field has
    less room. -/
theorem Accepted.stores_saturated {literal : List Char} (h : o.Accepted literal s s') :
    ∃ x n, Number.read? Number.double literal = some x ∧ o.Sets s s' n ∧ n ≤ o.most ∧
      Number.IsSaturated o.most x n ∧
      (∀ v, Number.WritesInteger literal v →
        (0 ≤ v → v ≤ o.most → (n : Int) = v) ∧ (o.most < v → n = o.most) ∧ (v < 0 → n = 0)) ∧
      ∀ (other : IntegerOption) (literal' : List Char) (t t' : Session Registry) (y : Number)
        (m : Nat), other.Accepted literal' t t' → Number.read? Number.double literal' = some y →
        other.Sets t t' m → o.most ≤ other.most → x.AtMost y → n ≤ m := by
  obtain ⟨x, hread, hnan, hsets⟩ := h.sets
  refine ⟨x, _, hread, hsets, Number.truncate_le _ _, Number.isSaturated_truncate _ hnan, ?_, ?_⟩
  · intro v hwrites
    have hcut := hwrites.truncate hread o.most_lt
    omega
  · intro other literal' t t' y m haccepted hread' hsets' hmost hle
    obtain ⟨_, hy, _, htruncated⟩ := haccepted.sets
    rw [hread'] at hy
    cases hy
    rw [hsets'.unique htruncated]
    exact Number.truncate_mono hle hmost

/-- A render queue that is too high, in a pass that is still open. -/
theorem stores_saturated_queue :
    let opened := "compositor C \x7b technique \x7b target_output \x7b pass render_scene \x7b "
    let d : Document := ⟨"queue.compositor", opened ++ "first_render_queue +0300.0"⟩
    let token := fun keyword : Keyword => Token.mk (.keyword keyword.id) 0 1
    let cs : List Call :=
      [.dispatch .compositor (token .compositor) ⟨[⟨.label "C", 0, 1⟩], 1⟩,
       .dispatch .technique (token .technique) ⟨[], 1⟩,
       .dispatch .targetOutput (token .targetOutput) ⟨[], 1⟩,
       .dispatch .pass (token .pass) ⟨[token .renderScene], 1⟩]
    let start := Session.new "General" (Registry.empty .standard)
    let before := (start.beginDocument d).hearAll Registry.builder cs
    ∃ after, firstRenderQueue.Accepted "+0300.0".toList before after ∧
      firstRenderQueue.Sets before after 255 := by
  intro opened d token cs start before
  let x : Number := .finite false 5277655813324800 (-44)
  let queue : Token := ⟨Keyword.firstRenderQueue.kind, 63, 1⟩
  let number : Token := ⟨.number x, 82, 1⟩
  let u : ActionUnit Action := ⟨.firstRenderQueue, queue, [number]⟩
  have hstatement : Event.statement ⟨[queue, number], 63, 1⟩ ∈
      (language true).events d.text.toList := by decide +kernel
  have hunit : u ∈ (ActionUnit.cut (language true).lexicon.action? [queue, number]).2 := .head _
  have hspelled : number.Spelled d.text.toList "+0300.0".toList := by
    have hscan : Number.scan "+0300.0".toList = some 7 := by decide
    exact ⟨(opened ++ "first_render_queue ").toList, _, by decide +kernel, by decide +kernel,
      Number.isLongestNumeral_of_scan hscan⟩
  have hskip : before.context.skipDepth = 0 := by decide +kernel
  have hanswer : (before.dispatch Registry.builder u.action u.token u.reader).1 = .ok .continue :=
    ok_of_toOption (by decide +kernel)
  have hreport : (before.dispatch Registry.builder u.action u.token u.reader).2.2.diagnostics =
      before.diagnostics := by decide +kernel
  have haccepted : firstRenderQueue.Accepted "+0300.0".toList before
      (before.dispatch Registry.builder u.action u.token u.reader).2.2 :=
    @Accepted.intro _ _ before _ true d start cs ⟨[queue, number], 63, 1⟩ u number x .continue
      (.empty .standard) hstatement hunit rfl rfl rfl hspelled rfl rfl hskip hanswer hreport
  have hwrites : Number.WritesInteger "+0300.0".toList 300 :=
    .pointed (.inr ⟨'+', rfl, rfl⟩) 1 300 1
  obtain ⟨_, n, _, hsets, _, _, hinteger, _⟩ := haccepted.stores_saturated
  have hn : n = 255 := (hinteger 300 hwrites).2.1 (by decide)
  exact ⟨_, haccepted, hn ▸ hsets⟩

end IntegerOption
end Compositing.Script
