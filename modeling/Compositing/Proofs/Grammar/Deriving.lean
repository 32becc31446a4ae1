import Compositing.Proofs.Grammar.Drafting

/-! # What rule bodies are

    A body is one or more sequences with a bar between two, a sequence one or
    more elements, and an element an atom or a group around a body:

        A       = S ('|' S)*
        S       = element element*
        element = atom  or  { A }  or  [ A ]  or  (?! A )

    Reading is one pass over the symbols that never looks ahead.  It is right
    in doing so.  A body is read from wherever one may stand, so a symbol that
    is refused stands in no body after what was read.  And what is read can
    always be completed: an atom where none is yet, then the closing symbols of
    the groups that are open. -/

namespace Compositing.Grammar

/-! ## The dialect -/

/-- Is the symbol an element by itself? -/
def Symbol.isAtom : Symbol → Bool
  | .rule _ | .number _ | .label _ => true
  | .terminal _ | .silentTerminal _ => true
  | .excludeClass _ | .includeClass _ => true
  | .define | .or => false
  | .repeatOpen | .repeatClose | .optionalOpen | .optionalClose => false
  | .lookaheadOpen | .groupClose => false

mutual

/-- The symbols are those of an element. -/
inductive IsElement : List Symbol → Prop where
  | atom {s} (hatom : s.isAtom = true) : IsElement [s]
  | repeated {body} (hbody : IsBody body) : IsElement (.repeatOpen :: (body ++ [.repeatClose]))
  | optional {body} (hbody : IsBody body) :
    IsElement (.optionalOpen :: (body ++ [.optionalClose]))
  | notAhead {body} (hbody : IsBody body) : IsElement (.lookaheadOpen :: (body ++ [.groupClose]))

/-- The symbols are those of one or more elements. -/
inductive IsSequence : List Symbol → Prop where
  | single {element} (helement : IsElement element) : IsSequence element
  | cons {element rest} (helement : IsElement element) (hrest : IsSequence rest) :
    IsSequence (element ++ rest)

/-- The symbols are those of one or more sequences, with a bar between two. -/
inductive IsBody : List Symbol → Prop where
  | single {sequence} (hsequence : IsSequence sequence) : IsBody sequence
  | cons {sequence rest} (hsequence : IsSequence sequence) (hrest : IsBody rest) :
    IsBody (sequence ++ .or :: rest)

end

/-- Some body begins with the symbols. -/
def Begins (front : List Symbol) : Prop := ∃ rest, IsBody (front ++ rest)

/-- A group around a body is an element. -/
theorem IsElement.group (group : Draft.Group) {body : List Symbol} (hbody : IsBody body) :
    IsElement (group.opener :: (body ++ [group.closer])) := by
  cases group with
  | repeated => exact .repeated hbody
  | optional => exact .optional hbody
  | notAhead => exact .notAhead hbody

namespace Draft

/-- The atoms are the symbols that make an element. -/
theorem ofSymbol?_isSome (s : Symbol) : (ofSymbol? s).isSome = s.isAtom := by
  cases s <;> rfl

namespace Reading

/-! ## One symbol -/

variable {r r' : Reading} {s : Symbol}

theorem step?_atom (r : Reading) (hatom : s.isAtom = true) :
    ∃ element, r.step? s = some { r with inner := r.inner.push element } := by
  rw [← ofSymbol?_isSome] at hatom
  obtain ⟨element, helement⟩ := Option.isSome_iff_exists.mp hatom
  refine ⟨element, ?_⟩
  unfold step?
  simp only [helement]

theorem step?_opener (r : Reading) (group : Group) :
    r.step? group.opener = some ⟨.empty, (group, r.inner) :: r.outer⟩ := by
  cases group <;> rfl

theorem step?_or (hinner : r.inner.atBeginning = false) :
    r.step? .or = some { r with inner := r.inner.bar } := by
  unfold step?
  simp [ofSymbol?, Group.opened?, hinner]

theorem step?_closer {group : Group} {around : Body} {outer : List (Group × Body)}
    (hinner : r.inner.atBeginning = false) (houter : r.outer = (group, around) :: outer) :
    r.step? group.closer = some ⟨around.push (group.wrap r.inner.alternatives), outer⟩ := by
  unfold step?
  cases group <;>
    simp [ofSymbol?, Group.opened?, Group.closer, Group.closed?, hinner, houter]

/-- All that reading one symbol can do. -/
theorem step?_cases (h : r.step? s = some r') :
    (∃ element, ofSymbol? s = some element ∧ r' = { r with inner := r.inner.push element }) ∨
    (∃ group, r' = ⟨.empty, (group, r.inner) :: r.outer⟩) ∨
    (r.inner.atBeginning = false ∧ r' = { r with inner := r.inner.bar }) ∨
    ∃ group around outer, r.inner.atBeginning = false ∧ r.outer = (group, around) :: outer ∧
      r' = ⟨around.push (group.wrap r.inner.alternatives), outer⟩ := by
  unfold step? at h
  split at h
  · rename_i element helement
    exact .inl ⟨element, helement, (Option.some.inj h).symm⟩
  · split at h
    · rename_i group _
      exact .inr (.inl ⟨group, (Option.some.inj h).symm⟩)
    · split at h
      · cases h
      · rename_i hbeginning
        have hinner : r.inner.atBeginning = false := by simpa using hbeginning
        split at h
        · exact .inr (.inr (.inl ⟨hinner, (Option.some.inj h).symm⟩))
        · split at h
          · rename_i group around outer houter
            split at h
            · exact .inr (.inr (.inr ⟨group, around, outer, hinner, houter,
                (Option.some.inj h).symm⟩))
            · cases h
          · cases h

/-! ## Symbols in a row -/

/-- The reading after some symbols, or nothing if one of them is impossible where it stands. -/
def reads? (r : Reading) (symbols : List Symbol) : Option Reading := symbols.foldlM step? r

theorem reads?_append (r : Reading) (front rest : List Symbol) :
    r.reads? (front ++ rest) = (r.reads? front).bind (·.reads? rest) :=
  List.foldlM_append

theorem reads?_cons (r : Reading) (s : Symbol) (rest : List Symbol) :
    r.reads? (s :: rest) = (r.step? s).bind (·.reads? rest) :=
  List.foldlM_cons

/-- What is read comes behind what was read before. -/
theorem symbols_reads? {symbols : List Symbol} (h : r.reads? symbols = some r') :
    r'.symbols = r.symbols ++ symbols := by
  induction symbols generalizing r with
  | nil =>
    cases h
    rw [List.append_nil]
  | cons s rest ih =>
    rw [reads?_cons] at h
    obtain ⟨r₁, hstep, hrest⟩ := Option.bind_eq_some_iff.mp h
    rw [ih hrest, symbols_step hstep, List.append_assoc]
    rfl

/-! ## Bodies are read -/

/-- The symbols are read from `r` on, up to a place with something behind it and with the groups
    that were open. -/
def ReadsPast (r : Reading) (symbols : List Symbol) : Prop :=
  ∃ r', r.reads? symbols = some r' ∧ r'.outer = r.outer ∧ r'.inner.atBeginning = false

theorem ReadsPast.append {front rest : List Symbol} (h : r.ReadsPast front)
    (hrest : ∀ r', r'.inner.atBeginning = false → ReadsPast r' rest) :
    r.ReadsPast (front ++ rest) := by
  obtain ⟨r₁, hfront, houter, hinner⟩ := h
  obtain ⟨r₂, hreads, houter', hinner'⟩ := hrest r₁ hinner
  refine ⟨r₂, ?_, houter'.trans houter, hinner'⟩
  rw [reads?_append, hfront]
  exact hreads

/-- A group is read if its body is. -/
theorem readsPast_group (r : Reading) (group : Group) {body : List Symbol}
    (hbody : ∀ r', ReadsPast r' body) : r.ReadsPast (group.opener :: (body ++ [group.closer])) := by
  obtain ⟨r₁, hreads, houter, hinner⟩ := hbody ⟨.empty, (group, r.inner) :: r.outer⟩
  refine ⟨⟨r.inner.push (group.wrap r₁.inner.alternatives), r.outer⟩, ?_, rfl, rfl⟩
  rw [reads?_cons, step?_opener, Option.bind_some, reads?_append, hreads, Option.bind_some,
    reads?_cons, step?_closer hinner houter]
  rfl

end Reading
end Draft

open Draft in
mutual

/-- An element is read wherever a reading stands. -/
theorem IsElement.readsPast :
    {element : List Symbol} → IsElement element → ∀ r : Reading, r.ReadsPast element
  | _, .atom hatom, r => by
    obtain ⟨d, hstep⟩ := r.step?_atom hatom
    refine ⟨{ r with inner := r.inner.push d }, ?_, rfl, rfl⟩
    rw [Reading.reads?_cons, hstep]
    rfl
  | _, .repeated hbody, r => r.readsPast_group .repeated hbody.readsPast
  | _, .optional hbody, r => r.readsPast_group .optional hbody.readsPast
  | _, .notAhead hbody, r => r.readsPast_group .notAhead hbody.readsPast

/-- So is a sequence. -/
theorem IsSequence.readsPast :
    {sequence : List Symbol} → IsSequence sequence → ∀ r : Reading, r.ReadsPast sequence
  | _, .single helement, r => helement.readsPast r
  | _, .cons helement hrest, r => (helement.readsPast r).append fun r' _ => hrest.readsPast r'

/-- So is a body. -/
theorem IsBody.readsPast :
    {body : List Symbol} → IsBody body → ∀ r : Reading, r.ReadsPast body
  | _, .single hsequence, r => hsequence.readsPast r
  | _, .cons hsequence hrest, r => by
    apply (hsequence.readsPast r).append
    intro r' hinner
    -- the bar is read since an element stands before it
    obtain ⟨r₁, hreads, houter, hinner'⟩ := hrest.readsPast { r' with inner := r'.inner.bar }
    refine ⟨r₁, ?_, houter, hinner'⟩
    rw [Reading.reads?_cons, Reading.step?_or hinner]
    exact hreads

end

namespace Draft

/-! ## What is read is sound -/

/-- Elements in front of a sequence make a longer one. -/
theorem isSequence_append {elements : List Draft}
    (helements : ∀ element ∈ elements, IsElement element.symbols) {sequence : List Symbol}
    (hsequence : IsSequence sequence) : IsSequence (sequenceSymbols elements ++ sequence) := by
  induction elements with
  | nil => exact hsequence
  | cons element elements ih =>
    rw [sequenceSymbols, List.append_assoc]
    exact .cons (helements element List.mem_cons_self)
      (ih fun e he => helements e (List.mem_cons_of_mem _ he))

/-- Sequences in front of a body make a longer one. -/
theorem isBody_append {sequences : List (List Draft)}
    (hsequences : ∀ sequence ∈ sequences, IsSequence (sequenceSymbols sequence))
    {body : List Symbol} (hbody : IsBody body) :
    IsBody (sequences.flatMap (fun sequence => sequenceSymbols sequence ++ [.or]) ++ body) := by
  induction sequences with
  | nil => exact hbody
  | cons sequence sequences ih =>
    rw [List.flatMap_cons, List.append_assoc, List.append_assoc]
    exact .cons (hsequences sequence List.mem_cons_self)
      (ih fun s hs => hsequences s (List.mem_cons_of_mem _ hs))

namespace Body
variable {b : Body}

/-- The finished alternatives are sequences, and the last one has elements. -/
structure IsSound (b : Body) : Prop where
  done : ∀ sequence ∈ b.done, IsSequence (sequenceSymbols sequence)
  current : ∀ element ∈ b.current, IsElement element.symbols

theorem isSound_empty : empty.IsSound := by
  constructor
  · exact nofun
  · exact nofun

theorem IsSound.push (h : b.IsSound) {element : Draft} (helement : IsElement element.symbols) :
    (b.push element).IsSound := by
  refine ⟨h.done, ?_⟩
  intro e he
  rcases List.mem_cons.mp he with hnew | hold
  · rw [hnew]
    exact helement
  · exact h.current e hold

/-- What goes on with a sequence goes on with the body. -/
theorem IsSound.isBody_of_sequence (h : b.IsSound) {sequence : List Symbol}
    (hsequence : IsSequence sequence) : IsBody (b.symbols ++ sequence) := by
  have hcurrent : IsSequence (sequenceSymbols b.current.reverse ++ sequence) := by
    apply isSequence_append _ hsequence
    intro element helement
    exact h.current element (List.mem_reverse.mp helement)
  rw [symbols, List.append_assoc]
  apply isBody_append _ (.single hcurrent)
  intro s hs
  exact h.done s (List.mem_reverse.mp hs)

/-- The elements of the last alternative are a sequence, if there is one. -/
theorem IsSound.isSequence_current (h : b.IsSound) (hcurrent : b.atBeginning = false) :
    IsSequence (sequenceSymbols b.current.reverse) := by
  obtain ⟨done, current⟩ := b
  cases current with
  | nil => cases hcurrent
  | cons last elements =>
    have hlast : IsSequence last.symbols := .single (h.current last List.mem_cons_self)
    rw [List.reverse_cons, sequenceSymbols_append]
    apply isSequence_append
    · intro element helement
      exact h.current element (List.mem_cons_of_mem _ (List.mem_reverse.mp helement))
    · rw [sequenceSymbols, sequenceSymbols, List.append_nil]
      exact hlast

/-- A sound body with something behind its last bar is a body. -/
theorem IsSound.isBody (h : b.IsSound) (hcurrent : b.atBeginning = false) : IsBody b.symbols := by
  apply isBody_append _ (.single (h.isSequence_current hcurrent))
  intro s hs
  exact h.done s (List.mem_reverse.mp hs)

theorem IsSound.bar (h : b.IsSound) (hcurrent : b.atBeginning = false) : b.bar.IsSound := by
  constructor
  · intro sequence hsequence
    rcases List.mem_cons.mp hsequence with hnew | hold
    · rw [hnew]
      exact h.isSequence_current hcurrent
    · exact h.done sequence hold
  · exact nofun

/-- With an atom behind it, if need be, it is one. -/
theorem IsSound.begins (h : b.IsSound) : Begins b.symbols := by
  by_cases hcurrent : b.atBeginning = false
  · refine ⟨[], ?_⟩
    rw [List.append_nil]
    exact h.isBody hcurrent
  · exact ⟨[.rule ""], h.isBody_of_sequence (.single (.atom rfl))⟩

end Body

namespace Reading
variable {r r' : Reading} {s : Symbol}

/-- The innermost body is sound, and so are those around it. -/
structure IsSound (r : Reading) : Prop where
  inner : r.inner.IsSound
  outer : ∀ around ∈ r.outer, around.2.IsSound

/-- Reading a symbol keeps a reading sound. -/
theorem IsSound.step (h : r.IsSound) (hstep : r.step? s = some r') : r'.IsSound := by
  rcases step?_cases hstep with ⟨element, helement, hr⟩ | ⟨group, hr⟩ | ⟨hinner, hr⟩ |
    ⟨group, around, outer, hinner, houter, hr⟩
  · have hatom : s.isAtom = true := by
      rw [← ofSymbol?_isSome, helement]
      rfl
    have hsymbols : IsElement element.symbols := by
      rw [symbols_of_ofSymbol helement]
      exact .atom hatom
    rw [hr]
    exact ⟨h.inner.push hsymbols, h.outer⟩
  · rw [hr]
    refine ⟨Body.isSound_empty, ?_⟩
    intro around haround
    rcases List.mem_cons.mp haround with hnew | hold
    · rw [hnew]
      exact h.inner
    · exact h.outer around hold
  · rw [hr]
    exact ⟨h.inner.bar hinner, h.outer⟩
  · -- the body of the group is a body, so the group is an element of the body around it
    have helement : IsElement (group.wrap r.inner.alternatives).symbols := by
      rw [Group.symbols_wrap, Body.symbols_alternatives]
      exact .group group (h.inner.isBody hinner)
    have houter' : ∀ a ∈ (group, around) :: outer, a.2.IsSound := by
      rw [← houter]
      exact h.outer
    have haround : around.IsSound := houter' (group, around) List.mem_cons_self
    rw [hr]
    exact ⟨haround.push helement, fun a ha => houter' a (List.mem_cons_of_mem _ ha)⟩

/-- So does reading many. -/
theorem IsSound.reads {symbols : List Symbol} (h : r.IsSound)
    (hreads : r.reads? symbols = some r') : r'.IsSound := by
  induction symbols generalizing r with
  | nil =>
    cases hreads
    exact h
  | cons s rest ih =>
    rw [reads?_cons] at hreads
    obtain ⟨r₁, hstep, hrest⟩ := Option.bind_eq_some_iff.mp hreads
    exact ih (h.step hstep) hrest

theorem isSound_start : start.IsSound := ⟨Body.isSound_empty, nofun⟩

/-! ## What is read can be completed -/

/-- What begins a body begins one behind the groups that are open.  The induction is on the
    groups, the innermost first: the body that is begun is completed and its group closed. -/
theorem begins_outer {outer : List (Group × Body)} (houter : ∀ around ∈ outer, around.2.IsSound)
    {front : List Symbol} (hfront : Begins front) :
    Begins (outer.reverse.flatMap (fun (group, around) => around.symbols ++ [group.opener]) ++
      front) := by
  induction outer generalizing front with
  | nil => exact hfront
  | cons last outer ih =>
    obtain ⟨group, around⟩ := last
    obtain ⟨rest, hbody⟩ := hfront
    have haround : around.IsSound := houter (group, around) List.mem_cons_self
    have hclosed : IsBody (around.symbols ++ group.opener :: (front ++ rest ++ [group.closer])) :=
      haround.isBody_of_sequence (.single (.group group hbody))
    have hopen : Begins (around.symbols ++ group.opener :: front) := by
      refine ⟨rest ++ [group.closer], ?_⟩
      rw [List.append_assoc, List.cons_append, ← List.append_assoc front]
      exact hclosed
    have hbegins := ih (fun a ha => houter a (List.mem_cons_of_mem _ ha)) hopen
    rw [List.reverse_cons, List.flatMap_append, List.flatMap_singleton, List.append_assoc,
      List.append_assoc]
    exact hbegins

/-- The symbols of a sound reading begin a body. -/
theorem IsSound.begins (h : r.IsSound) : Begins r.symbols :=
  begins_outer h.outer h.inner.begins

theorem finish?_eq_some {alternatives : List (List Draft)} :
    r.finish? = some alternatives ↔
      r.outer = [] ∧ r.inner.atBeginning = false ∧ r.inner.alternatives = alternatives := by
  unfold finish?
  cases houter : r.outer <;> cases hinner : r.inner.atBeginning <;> simp

end Reading
end Draft

/-! ## Reading decides the dialect -/

open Draft in
/-- What begins a body is what can be read. -/
theorem begins_iff (front : List Symbol) :
    Begins front ↔ ∃ r, Reading.start.reads? front = some r := by
  constructor
  · intro hbegins
    obtain ⟨rest, hbody⟩ := hbegins
    obtain ⟨r, hreads, _⟩ := hbody.readsPast .start
    rw [Reading.reads?_append] at hreads
    obtain ⟨r₁, hfront, _⟩ := Option.bind_eq_some_iff.mp hreads
    exact ⟨r₁, hfront⟩
  · intro hreads
    obtain ⟨r, hreads⟩ := hreads
    have hbegins := (Reading.isSound_start.reads hreads).begins
    rwa [Reading.symbols_reads? hreads] at hbegins

open Draft in
/-- A body is what can be read and may end there, and what is read of it is written as it is. -/
theorem isBody_iff (body : List Symbol) :
    IsBody body ↔ ∃ r alternatives, Reading.start.reads? body = some r ∧
      r.finish? = some alternatives ∧ alternativesSymbols alternatives = body := by
  constructor
  · intro hbody
    obtain ⟨r, hreads, houter, hinner⟩ := hbody.readsPast .start
    refine ⟨r, _, hreads, Reading.finish?_eq_some.mpr ⟨houter, hinner, rfl⟩, ?_⟩
    have hsymbols := Reading.symbols_reads? hreads
    have houter : r.outer = [] := houter
    rw [Reading.symbols, houter] at hsymbols
    rw [Body.symbols_alternatives]
    exact hsymbols
  · intro hreads
    obtain ⟨r, alternatives, hreads, hfinish, hsymbols⟩ := hreads
    obtain ⟨_, hinner, halternatives⟩ := Reading.finish?_eq_some.mp hfinish
    rw [← hsymbols, ← halternatives, Body.symbols_alternatives]
    exact (Reading.isSound_start.reads hreads).inner.isBody hinner

end Compositing.Grammar
