import Compositing.Proofs.Script.Dispatch
import Compositing.Script.Compiler

/-! # What becomes of the builder

    A session reaches its builder by the three operations only.  So a relation
    between builder states that each operation brings about, and that goes
    through from step to step, holds between the states before and after any
    run of a document. -/

namespace Compositing

variable {σ : Type}

/-- Every operation of the builder takes a state to one it is related to. -/
structure Builder.Brings (b : Builder σ) (related : σ → σ → Prop) : Prop where
  refl : ∀ s, related s s
  trans : ∀ {s t u}, related s t → related t u → related s u
  createCompositor : ∀ name group s, related s (b.createCompositor name group s).2
  createChild : ∀ parent kind s, related s (b.createChild parent kind s).2
  setAttribute : ∀ object attr s, related s (b.setAttribute object attr s).2

namespace Script.Session
variable {b : Builder σ} {related : σ → σ → Prop}

/-! ## Commands -/

section
variable (hbrings : b.Brings related) (s : Session σ)
include hbrings

theorem createChildWith_brings (parent : Handle) (kind : ChildKind) (attr : Attribute) :
    related s.builder (s.createChildWith b parent kind attr).2.builder := by
  have hchild : related s.builder (s.createChild b parent kind).2.builder :=
    hbrings.createChild parent kind s.builder
  unfold createChildWith
  generalize s.createChild b parent kind = created at hchild ⊢
  obtain ⟨error | handle, s₁⟩ := created
  · exact hchild
  · have hset : related s₁.builder (s₁.setAttribute b handle attr).2.builder :=
      hbrings.setAttribute handle attr s₁.builder
    simp only
    generalize s₁.setAttribute b handle attr = answer at hset ⊢
    obtain ⟨error | ⟨⟩, s₂⟩ := answer <;> exact hbrings.trans hchild hset

omit hbrings in
/-- Entering a block leaves the builder alone. -/
theorem opening_builder (enter : Context → Handle → Context)
    (request : Except BuilderError Handle × Session σ) :
    (opening enter request).2.builder = request.2.builder := by
  rcases request with ⟨error | handle, s₁⟩ <;> rfl

theorem execute_brings (command : Command) :
    related s.builder (s.execute b command).2.builder := by
  cases command with
  | close => exact hbrings.refl s.builder
  | openCompositor name =>
    simp only [execute, opening_builder]
    exact hbrings.createCompositor name s.context.group s.builder
  | openTechnique parent | openOutputTarget parent =>
    simp only [execute, opening_builder]
    exact hbrings.createChild parent _ s.builder
  | openTarget parent _ | openPass parent _ =>
    simp only [execute, opening_builder]
    exact createChildWith_brings hbrings s parent _ _
  | set object attr => exact hbrings.setAttribute object attr s.builder

/-! ## Runs -/

theorem dispatch_brings (action : Action) (token : Token) (arguments : Arguments) :
    related s.builder (s.dispatch b action token arguments).2.2.builder := by
  have hd := dispatched b s action token arguments
  generalize s.dispatch b action token arguments = outcome at hd ⊢
  cases hd with
  | skipped _ | inconsistent _ _ | unread _ _ => exact hbrings.refl s.builder
  | ungranted _ _ hexecute | done _ _ hexecute =>
    have hexecuted : related s.builder (s.execute b ‹Command›).2.builder :=
      execute_brings hbrings s _
    rw [hexecute] at hexecuted
    exact hexecuted

theorem runUnits_brings (units : List (ActionUnit Action)) :
    related s.builder ((handler b).runUnits units s).2.builder := by
  induction units generalizing s with
  | nil => exact hbrings.refl s.builder
  | cons u rest ih =>
    have hdispatch : related s.builder
        ((handler b).dispatch u.action u.token u.reader s).2.2.builder :=
      dispatch_brings hbrings s u.action u.token u.reader
    unfold Handler.runUnits
    generalize (handler b).dispatch u.action u.token u.reader s = answer at hdispatch ⊢
    obtain ⟨error | flow, unread, s₁⟩ := answer
    · exact hdispatch
    · cases flow with
      | skipStatement => exact hdispatch
      | «continue» =>
        have hrest := hbrings.trans hdispatch (ih s₁)
        simp only
        generalize (handler b).runUnits rest s₁ = outcome at hrest ⊢
        obtain ⟨error | count, s₂⟩ := outcome <;> exact hrest

theorem runStatement_brings (action? : Nat → Option Action) (statement : Statement) :
    related s.builder ((handler b).runStatement action? statement s).2.builder := by
  unfold Handler.runStatement
  rcases ActionUnit.cut action? statement.tokens with ⟨_ | ⟨token, leading⟩, units⟩
  · exact runUnits_brings hbrings s units
  · exact hbrings.refl s.builder

theorem runEvents_brings (action? : Nat → Option Action) (events : List Event)
    (summary : Summary) :
    related s.builder ((handler b).runEvents action? events summary s).2.builder := by
  induction events generalizing s summary with
  | nil => exact hbrings.refl s.builder
  | cons event rest ih =>
    cases event with
    | mismatch m => exact ih (s.mismatch m) _
    | statement statement =>
      have hstatement := runStatement_brings hbrings s action? statement
      unfold Handler.runEvents
      generalize (handler b).runStatement action? statement s = outcome at hstatement ⊢
      obtain ⟨error | count, s₁⟩ := outcome
      · exact hstatement
      · exact hbrings.trans hstatement (ih s₁ _)

end

theorem endDocument_builder (s : Session σ) : s.endDocument.builder = s.builder := by
  unfold endDocument
  split <;> rfl

/-- Compiling a document takes the builder to a state that its own is related to. -/
theorem compile_brings (hbrings : b.Brings related) (c : Compiler) (d : Document) (builder : σ) :
    related builder (c.compile b d builder).2.builder := by
  have hrun := runEvents_brings hbrings ((new c.group builder).beginDocument d)
    c.language.lexicon.action? (c.language.events d.text.toList) ⟨0, 0, 0, 0⟩
  have hbegun : ((new c.group builder).beginDocument d).builder = builder := rfl
  rw [hbegun] at hrun
  have hbegin : (handler b).beginDocument d (new c.group builder) =
      (new c.group builder).beginDocument d := rfl
  simp only [Compiler.compile, Language.run, hbegin]
  rcases hevents : (handler b).runEvents c.language.lexicon.action?
      (c.language.events d.text.toList) ⟨0, 0, 0, 0⟩
      ((new c.group builder).beginDocument d) with ⟨error | summary, s⟩
  · rw [hevents] at hrun
    exact hrun
  · rw [hevents] at hrun
    show related builder s.endDocument.builder
    rw [endDocument_builder]
    exact hrun

end Script.Session
end Compositing
