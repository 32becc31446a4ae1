import Compositing.Lexicon
import Compositing.Scene.Registry
import Compositing.Script.Keyword

/-! # Outlines

    A registry in a few lines for each compositor, and the table of keywords. -/

namespace Compositing

/-- The lines of a pass. -/
def Pass.outline (p : Pass) : List String :=
  ["      pass " ++ p.passType.name ++ " material=" ++ p.material.getD "-"]

/-- The lines of a target. -/
def Target.outline (t : Target) : List String :=
  ("    target " ++ t.outputName.getD "<output>" ++ " input=" ++ t.inputMode.name)
    :: t.passes.flatMap Pass.outline

/-- The lines of a texture. -/
def Texture.outline (t : Texture) : List String :=
  ["    texture " ++ t.name ++ " " ++ toString t.width.toNat ++ "x" ++ toString t.height.toNat
    ++ " " ++ t.format.name]

/-- The lines of a technique; its output target comes last. -/
def Technique.outline (t : Technique) (index : Nat) : List String :=
  ("  technique " ++ toString index ++ ": " ++ toString t.textures.length ++ " textures, "
      ++ toString t.targets.length ++ " targets")
    :: t.textures.flatMap Texture.outline ++ (t.targets ++ [t.output]).flatMap Target.outline

/-- The lines of a compositor. -/
def Compositor.outline (c : Compositor) : List String :=
  ("compositor " ++ c.name ++ " [" ++ c.group ++ "]")
    :: c.techniques.zipIdx.flatMap fun (technique, index) => technique.outline index

/-- Lines as a text. -/
def linesText (lines : List String) : String := String.join (lines.map (· ++ "\n"))

/-- A registry as a text. -/
def Registry.outline (r : Registry) : String := linesText (r.compositors.flatMap Compositor.outline)

/-! ## Keywords -/

/-- A text filled up with spaces behind it. -/
def padEnd (width : Nat) (s : String) : String :=
  s ++ String.ofList (List.replicate (width - s.length) ' ')

/-- A text filled up with spaces before it. -/
def padStart (width : Nat) (s : String) : String :=
  String.ofList (List.replicate (width - s.length) ' ') ++ s

/-- A row of the table of keywords. -/
def keywordRow (text id action : String) : String :=
  padEnd 20 text ++ " " ++ padStart 5 id ++ "  " ++ action

/-- The table of keywords as a text. -/
def Lexicon.table (lexicon : Lexicon Action) : String :=
  linesText (keywordRow "lexeme" "id" "action" :: lexicon.entries.map fun entry =>
    keywordRow entry.text (toString entry.id) ((entry.action.map (·.name)).getD "-"))

end Compositing
