import Compositing.Proofs.Grammar.Resolving
import Compositing.Script.Production

/-! # The text of the grammar

    The grammar of compositor scripts is given as a value, which is read
    without touching a text.  It is the one that its text compiles to.

    The text is compiled in two steps, because the places of its symbols do not
    matter: it is cut into the symbols that the rules are written with, and
    these symbols, wherever they stand, are read, resolved and linked. -/

namespace Compositing

/-! ## Compiling symbols -/

namespace Grammar

/-- The symbols that the rules are written with. -/
def symbols (g : Grammar) : List Symbol :=
  g.rules.flatMap fun r => .rule r.name :: .define :: Element.alternativesSymbols r.alternatives

/-- A symbol, and that it does not matter where it stands. -/
def Symbol.anywhere (s : Symbol) : PlacedSymbol := ⟨s, 0, 0, 0⟩

/-- Symbols that are nowhere in particular, as a linked grammar, if they make one. -/
def ofSymbols? {α : Type} (lexicon : Lexicon α) (symbols : List Symbol) (start : String) :
    Option Grammar := do
  let drafts ← (RuleDraft.ofSymbols? (symbols.map Symbol.anywhere)).toOption
  let g ← (ofDrafts drafts start).toOption
  (g.link lexicon).toOption

theorem toOption_eq_some {ε α : Type} {x : Except ε α} {a : α} :
    x.toOption = some a ↔ x = .ok a := by
  cases x <;> simp [Except.toOption]

/-- A text compiles to what its symbols make. -/
theorem compileLinked_of_symbols {α : Type} {lexicon : Lexicon α} {text start : String}
    {symbols : List Symbol} {g : Grammar}
    (hsymbols : (Symbol.ofText? text.toList).toOption.map (·.map (·.symbol)) = some symbols)
    (hgrammar : ofSymbols? lexicon symbols start = some g) :
    compileLinked lexicon text start = .ok g := by
  obtain ⟨placed, hplaced, hsame⟩ := Option.map_eq_some_iff.mp hsymbols
  obtain ⟨drafts, hdrafts, hgrammar⟩ := Option.bind_eq_some_iff.mp hgrammar
  obtain ⟨unlinked, hunlinked, hlinked⟩ := Option.bind_eq_some_iff.mp hgrammar
  rw [toOption_eq_some] at hplaced hdrafts hunlinked hlinked
  have hanywhere : placed.map (·.symbol) = (symbols.map Symbol.anywhere).map (·.symbol) := by
    rw [hsame, List.map_map]
    exact (List.map_id symbols).symm
  obtain ⟨drafts', hdrafts', hcontent⟩ := ofSymbols_congr hdrafts hanywhere
  have hcompiled : compile text start = .ok unlinked :=
    compile_ok_iff.mpr
      ⟨placed, drafts', hplaced, hdrafts', (ofDrafts_congr hcontent start).trans hunlinked⟩
  unfold compileLinked
  rw [hcompiled]
  exact hlinked

end Grammar

/-! ## The grammar of compositor scripts -/

namespace Script
open Grammar (Symbol)

set_option maxRecDepth 10000 in
/-- The text is cut into the symbols that the rules are written with. -/
theorem symbols_grammarText :
    (Symbol.ofText? grammarText.toList).toOption.map (·.map (·.symbol)) =
      some grammar.symbols := by
  -- the characters of a literal are at hand; evaluating the text would decode its bytes
  unfold grammarText
  rw [String.toList_ofList]
  decide +kernel

/-- The rules are read from their symbols, whether case counts among keywords or not. -/
theorem ofSymbols?_symbols (caseSensitive : Bool) :
    Grammar.ofSymbols? (Keyword.lexicon caseSensitive) grammar.symbols "Script" =
      some grammar := by
  cases caseSensitive with
  | true => decide +kernel
  | false => decide +kernel

/-- The grammar is what its text compiles to. -/
theorem compileLinked_grammarText (caseSensitive : Bool) :
    Grammar.compileLinked (Keyword.lexicon caseSensitive) grammarText "Script" = .ok grammar :=
  Grammar.compileLinked_of_symbols symbols_grammarText (ofSymbols?_symbols caseSensitive)

/-- The language is what compiling the text of the grammar gives. -/
theorem compile_grammarText (caseSensitive : Bool) :
    Language.compile "compositor" grammarText "Script" (Keyword.lexicon caseSensitive) =
      .ok (language caseSensitive) := by
  unfold Language.compile
  rw [compileLinked_grammarText]
  rfl

end Script
end Compositing
