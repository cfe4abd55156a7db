import TinyLisp.Proofs.Value.Datum

/-!
The grammar of values.

An atom spells a text, a number or a symbol, and a list is spelled by its elements between two
parentheses. Reading accepts exactly what is spelled in this way with no node under too many lists,
whatever the tokens are. No tokens spell two values and no spelling goes on from another one, so
what is read first is the same whatever follows it.
-/

set_option autoImplicit false

namespace TinyLisp

/-- What an atom spells: the text that it quotes, the number that it is a numeral of, or else the
symbol of its own name. -/
inductive AtomSpells : String → Value → Prop
  | text {spelling : String} {contents : List Char}
      (quoted : Text.unquote? spelling.toList = some contents) :
      AtomSpells spelling (.text (String.ofList contents))
  | number {spelling : String} {number : Float}
      (numeral : Numeral.read? spelling.toList = some number) :
      AtomSpells spelling (.number number)
  | symbol {name : String} (readable : ReadableName name) : AtomSpells name (.symbol name)

/-- No numeral starts with a quote. -/
theorem Numeral.read_quote (rest : List Char) : read? ('"' :: rest) = none := by
  have notDigit : '"'.isDigit = false := by decide
  have lower : '"'.toLower = '"' := by decide
  simp [read?, plain?, splitSign, decimal?, splitFraction, word?, signed?,
    List.span_eq_takeWhile_dropWhile, notDigit, lower]

theorem Text.quote_of_unquote {spelling contents : List Char}
    (quoted : unquote? spelling = some contents) : ∃ rest, spelling = '"' :: rest := by
  unfold unquote? at quoted
  split at quoted
  case h_1 rest => exact ⟨rest, rfl⟩
  case h_2 => contradiction

theorem atom_spells_of_read {spelling : String} {value : Value}
    (read : readAtom spelling = .ok value) : AtomSpells spelling value := by
  simp only [readAtom, readText] at read
  split at read
  · split at read
    case h_1 contents quoted =>
      rw [← Except.ok.inj read]
      exact .text quoted
    case h_2 => contradiction
  · split at read
    case h_1 number numeral =>
      rw [← Except.ok.inj read]
      exact .number numeral
    case h_2 notNumeral =>
      split at read
      · contradiction
      case isFalse notNumeric =>
        split at read
        · contradiction
        · split at read
          case isTrue isName =>
            have name := (symbol_name_iff spelling).mp isName
            rw [← Except.ok.inj read]
            exact .symbol ⟨name.1, name.2, notNumeral, Bool.eq_false_iff.mpr notNumeric⟩
          case isFalse => contradiction

theorem read_of_atom_spells {spelling : String} {value : Value}
    (spelled : AtomSpells spelling value) : readAtom spelling = .ok value := by
  cases spelled with
  | text quoted =>
      obtain ⟨rest, starts⟩ := Text.quote_of_unquote quoted
      have head : spelling.toList.head? = some '"' := by rw [starts, List.head?_cons]
      simp only [readAtom, if_pos head, readText, quoted]
  | number numeral =>
      have noQuote : ¬spelling.toList.head? = some '"' := by
        intro head
        obtain ⟨rest, starts⟩ := List.head?_eq_some_iff.mp head
        rw [starts, Numeral.read_quote] at numeral
        contradiction
      simp only [readAtom, if_neg noQuote, numeral]
  | symbol readable =>
      have absent : '"' ∉ spelling.toList := by
        intro member
        exact readable.plain '"' member List.mem_cons_self
      have noQuote : ¬spelling.toList.head? = some '"' := by
        intro head
        exact absent (List.mem_of_head? head)
      have isName : isSymbolName spelling.toList = true :=
        (symbol_name_iff spelling).mpr ⟨readable.nonempty, readable.plain⟩
      simp only [readAtom, if_neg noQuote, readable.notNumeral, readable.notNumeric,
        List.contains_eq_mem, decide_eq_false absent, isName]
      rfl

namespace Value

/-- A value all of whose nodes may stand where so many lists are open around it. -/
def FitsAt (depth : Nat) (value : Value) : Prop :=
  ∀ below node, value.HasNode below node → depth + below < maxNesting

theorem FitsAt.room {depth : Nat} {value : Value} (fits : value.FitsAt depth) :
    depth < maxNesting :=
  fits 0 value (.root value)

theorem fits_at_list_iff {depth : Nat} {elements : List Value} :
    (Value.list elements).FitsAt depth ↔
      depth < maxNesting ∧ ∀ element ∈ elements, element.FitsAt (depth + 1) := by
  constructor
  · intro fits
    refine ⟨fits.room, ?_⟩
    intro element member below node inside
    have held := fits (below + 1) node (.element member inside)
    omega
  · intro held below node inside
    cases inside with
    | root => exact held.1
    | element member inside =>
        have deeper := held.2 _ member _ node inside
        omega

theorem fits_at_of_atom_spells {depth : Nat} {spelling : String} {value : Value}
    (spelled : AtomSpells spelling value) (room : depth < maxNesting) : value.FitsAt depth := by
  intro below node inside
  cases spelled <;> cases inside <;> exact room

end Value

/-- Tokens that spell a value. -/
inductive Spells : List Token → Value → Prop
  | atom {spelling : String} {value : Value} (spelled : AtomSpells spelling value) :
      Spells [.atom spelling] value
  | list {parts : List (List Token)} {elements : List Value}
      (each : List.Forall₂ Spells parts elements) :
      Spells (.openParen :: (parts.flatten ++ [.closeParen])) (.list elements)

namespace Spells

/-- Induction over spellings, with the hypothesis for the spelling of every element. -/
@[elab_as_elim, induction_eliminator]
theorem spelling_induction
    {motive : ∀ (tokens : List Token) (value : Value), Spells tokens value → Prop}
    (atom : ∀ {spelling value} (spelled : AtomSpells spelling value),
      motive [.atom spelling] value (.atom spelled))
    (list : ∀ {parts elements} (each : List.Forall₂ Spells parts elements),
      List.Forall₂ (fun part element => ∃ spelled, motive part element spelled) parts elements →
        motive (.openParen :: (parts.flatten ++ [.closeParen])) (.list elements) (.list each))
    {tokens : List Token} {value : Value} (spelled : Spells tokens value) :
    motive tokens value spelled := by
  refine @Spells.rec motive
    (fun parts elements _ =>
      List.Forall₂ (fun part element => ∃ spelled, motive part element spelled) parts elements)
    ?_ ?_ ?_ ?_ tokens value spelled
  · intro spelling value spelled
    exact atom spelled
  · intro parts elements each eachHolds
    exact list each eachHolds
  · exact .nil
  · intro part element parts elements spelled _ holds restHolds
    exact .cons ⟨spelled, holds⟩ restHolds

/-- A spelling starts with an atom or with an opening parenthesis. -/
theorem starts {tokens : List Token} {value : Value} (spelled : Spells tokens value) :
    ∃ token rest, tokens = token :: rest ∧ token ≠ .closeParen := by
  cases spelled with
  | atom spelled => exact ⟨_, [], rfl, nofun⟩
  | list each => exact ⟨_, _, rfl, nofun⟩

/-- Behind a spelling there is what its length leaves of the tokens. -/
theorem drop_rest {token : Token} {rest front back : List Token} {value : Value}
    (spelled : Spells front value) (starts : token :: rest = front ++ back) :
    rest.drop (front.length - 1) = back := by
  obtain ⟨first, more, rfl, -⟩ := spelled.starts
  rw [(List.cons.inj starts).2]
  exact List.drop_left

/-- An element has a part of its own among the tokens. -/
theorem part_of_element {Holds : List Token → Value → Prop} {parts : List (List Token)}
    {elements : List Value} (each : List.Forall₂ Holds parts elements) {element : Value}
    (member : element ∈ elements) : ∃ part, part ⊆ parts.flatten ∧ Holds part element := by
  induction each with
  | nil => contradiction
  | cons first each ih =>
      rw [List.flatten_cons]
      rcases List.mem_cons.mp member with rfl | later
      · exact ⟨_, List.subset_append_left _ _, first⟩
      · obtain ⟨part, inside, holds⟩ := ih later
        exact ⟨part, List.subset_append_of_subset_right _ inside, holds⟩

/-- Whatever else is spelled at the start of tokens that start with this spelling, is this one. -/
def Alone (tokens : List Token) (value : Value) : Prop :=
  ∀ {other : List Token} {otherValue : Value}, Spells other otherValue →
    ∀ {rest otherRest : List Token}, tokens ++ rest = other ++ otherRest →
      tokens = other ∧ value = otherValue

theorem alone_of_atom {spelling : String} {value : Value} (spelled : AtomSpells spelling value) :
    Alone [.atom spelling] value := by
  intro other otherValue otherSpelled rest otherRest same
  cases otherSpelled with
  | atom otherAtom =>
      cases (List.cons.inj same).1
      have read := read_of_atom_spells spelled
      rw [read_of_atom_spells otherAtom] at read
      exact ⟨rfl, (Except.ok.inj read).symm⟩
  | list each => cases same

/-- The elements in front of a closing parenthesis, and their spellings together, are the only
ones there. -/
theorem alone_of_elements {parts : List (List Token)} {elements : List Value}
    (each : List.Forall₂ (fun part element => ∃ _ : Spells part element, Alone part element)
      parts elements)
    {others : List (List Token)} {otherElements : List Value}
    (otherEach : List.Forall₂ Spells others otherElements) {rest otherRest : List Token}
    (same : parts.flatten ++ .closeParen :: rest = others.flatten ++ .closeParen :: otherRest) :
    parts.flatten = others.flatten ∧ elements = otherElements := by
  induction each generalizing others otherElements with
  | nil =>
      cases otherEach with
      | nil => exact ⟨rfl, rfl⟩
      | cons otherSpelled otherEach =>
          obtain ⟨token, after, rfl, notClose⟩ := otherSpelled.starts
          exact absurd (List.cons.inj same).1.symm notClose
  | cons first each ih =>
      obtain ⟨spelled, alone⟩ := first
      cases otherEach with
      | nil =>
          obtain ⟨token, after, rfl, notClose⟩ := spelled.starts
          exact absurd (List.cons.inj same).1 notClose
      | cons otherSpelled otherEach =>
          simp only [List.flatten_cons, List.append_assoc] at same ⊢
          obtain ⟨rfl, rfl⟩ := alone otherSpelled same
          have later := ih otherEach (List.append_cancel_left same)
          rw [later.1, later.2]
          exact ⟨rfl, rfl⟩

/-- The grammar is unambiguous, and no spelling goes on from another one. -/
theorem alone {tokens : List Token} {value : Value} (spelled : Spells tokens value) :
    Alone tokens value := by
  induction spelled with
  | atom spelled => exact alone_of_atom spelled
  | list _ each =>
      intro other otherValue otherSpelled rest otherRest same
      cases otherSpelled with
      | atom otherAtom => cases same
      | list otherEach =>
          simp only [List.cons_append, List.append_assoc, List.cons.injEq, true_and,
            List.nil_append] at same
          have together := alone_of_elements each otherEach same
          rw [together.1, together.2]
          exact ⟨rfl, rfl⟩

end Spells

/-- Tokens that spell a value which may stand where so many lists are open. -/
def SpellsAt (depth : Nat) (tokens : List Token) (value : Value) : Prop :=
  Spells tokens value ∧ value.FitsAt depth

theorem spells_at_list {depth : Nat} {parts : List (List Token)} {elements : List Value}
    (room : depth < maxNesting) (each : List.Forall₂ (SpellsAt (depth + 1)) parts elements) :
    SpellsAt depth (.openParen :: (parts.flatten ++ [.closeParen])) (.list elements) := by
  have spelled : List.Forall₂ Spells parts elements := each.imp fun _ _ spells => spells.1
  refine ⟨.list spelled, Value.fits_at_list_iff.mpr ⟨room, ?_⟩⟩
  clear spelled
  induction each with
  | nil => exact List.forall_mem_nil _
  | cons first each ih => exact List.forall_mem_cons.mpr ⟨first.2, ih⟩

theorem spells_at_atom {depth : Nat} {spelling : String} {value : Value}
    (room : depth < maxNesting) (spelled : AtomSpells spelling value) :
    SpellsAt depth [.atom spelling] value :=
  ⟨.atom spelled, Value.fits_at_of_atom_spells spelled room⟩

namespace Value

theorem read_at_full {depth : Nat} (full : maxNesting ≤ depth) (token : Token)
    (rest : List Token) :
    readAt depth (token :: rest) = .error (.tooDeeplyNested maxNesting) := by
  cases token <;> rw [readAt, if_pos full]

theorem read_at_atom {depth : Nat} (room : depth < maxNesting) (spelling : String)
    (rest : List Token) :
    readAt depth (.atom spelling :: rest) = (readAtom spelling).map fun value => (value, 1) := by
  rw [readAt, if_neg (Nat.not_le.mpr room)]

theorem read_at_open {depth : Nat} (room : depth < maxNesting) (rest : List Token) :
    readAt depth (.openParen :: rest) = readElements depth [] 1 rest := by
  rw [readAt, if_neg (Nat.not_le.mpr room)]

theorem read_elements_fault {depth : Nat} {token : Token} (notClose : token ≠ .closeParen)
    {rest : List Token} {fault : ReadError}
    (fails : readAt (depth + 1) (token :: rest) = .error fault) (earlier : List Value)
    (used : Nat) : readElements depth earlier used (token :: rest) = .error fault := by
  rw [readElements, fails]
  exact notClose

theorem read_elements_element {depth : Nat} {token : Token} (notClose : token ≠ .closeParen)
    {rest : List Token} {element : Value} {spanned : Nat}
    (read : readAt (depth + 1) (token :: rest) = .ok (element, spanned)) (earlier : List Value)
    (used : Nat) :
    readElements depth earlier used (token :: rest) =
      readElements depth (element :: earlier) (used + spanned) (rest.drop (spanned - 1)) := by
  rw [readElements, read]
  exact notClose

/-- What is read at the start of some tokens is spelled by as many of them as it spans. The elements
of a list are spelled one behind the other up to the closing parenthesis. -/
theorem spelled_of_read :
    (∀ depth tokens value spanned, readAt depth tokens = .ok (value, spanned) →
      ∃ front rest, tokens = front ++ rest ∧ spanned = front.length ∧
        SpellsAt depth front value) ∧
    (∀ depth earlier used tokens, depth < maxNesting →
      ∀ value total, readElements depth earlier used tokens = .ok (value, total) →
        ∃ parts elements rest, tokens = parts.flatten ++ .closeParen :: rest ∧
          total = used + parts.flatten.length + 1 ∧
          value = .list (earlier.reverse ++ elements) ∧
          List.Forall₂ (SpellsAt (depth + 1)) parts elements) := by
  apply readAt.mutual_induct
  case case1 => -- no tokens
    intro depth value spanned read
    rw [readAt] at read
    contradiction
  case case2 => -- no room for a value
    intro depth token rest full value spanned read
    rw [read_at_full full] at read
    contradiction
  case case3 => -- a list
    intro depth rest notFull elementsSpelled value spanned read
    have room : depth < maxNesting := Nat.not_le.mp notFull
    rw [read_at_open room] at read
    obtain ⟨parts, elements, back, rfl, rfl, rfl, each⟩ :=
      elementsSpelled room value spanned read
    refine ⟨.openParen :: (parts.flatten ++ [.closeParen]), back, ?_, ?_, spells_at_list room each⟩
    · simp
    · simp [Nat.add_comm]
  case case4 => -- a closing parenthesis where a value should be
    intro depth rest notFull value spanned read
    rw [readAt, if_neg notFull] at read
    contradiction
  case case5 => -- an atom
    intro depth rest notFull spelling value spanned read
    have room : depth < maxNesting := Nat.not_le.mp notFull
    rw [read_at_atom room] at read
    cases atomRead : readAtom spelling with
    | error fault =>
        rw [atomRead] at read
        contradiction
    | ok atomValue =>
        rw [atomRead] at read
        cases read
        exact ⟨[.atom spelling], rest, rfl, rfl, spells_at_atom room (atom_spells_of_read atomRead)⟩
  case case6 => -- the tokens end inside a list
    intro depth earlier used room value total read
    rw [readElements] at read
    contradiction
  case case7 => -- the end of a list
    intro depth earlier used rest room value total read
    rw [readElements] at read
    cases read
    exact ⟨[], [], rest, rfl, rfl, by rw [List.append_nil], .nil⟩
  case case8 => -- an element with a fault
    intro depth earlier used token rest notClose fault elementFails _ room value total read
    rw [read_elements_fault notClose elementFails] at read
    contradiction
  case case9 => -- an element, and what is behind it
    intro depth earlier used token rest notClose element spanned elementRead elementSpelled
      laterSpelled room value total read
    rw [read_elements_element notClose elementRead] at read
    obtain ⟨part, back, starts, rfl, spelled⟩ := elementSpelled element spanned elementRead
    rw [spelled.1.drop_rest starts] at laterSpelled read
    obtain ⟨parts, elements, behind, rfl, rfl, rfl, each⟩ := laterSpelled room value total read
    refine ⟨part :: parts, element :: elements, behind, ?_, ?_, ?_, .cons spelled each⟩
    · rw [starts, List.flatten_cons, List.append_assoc]
    · rw [List.flatten_cons, List.length_append, Nat.add_assoc used]
    · simp

/-- Elements that are each read inside a list are read one behind the other. -/
theorem read_elements_of_spells {depth : Nat} {parts : List (List Token)} {elements : List Value}
    (each : List.Forall₂ (fun part element => ∃ _ : Spells part element,
      ∀ {inside}, element.FitsAt inside → ∀ rest,
        readAt inside (part ++ rest) = .ok (element, part.length)) parts elements)
    (fit : ∀ element ∈ elements, element.FitsAt (depth + 1)) (earlier : List Value) (used : Nat)
    (rest : List Token) :
    readElements depth earlier used (parts.flatten ++ .closeParen :: rest) =
      .ok (.list (earlier.reverse ++ elements), used + parts.flatten.length + 1) := by
  induction each generalizing earlier used with
  | nil =>
      rw [List.flatten_nil, List.nil_append, readElements]
      simp
  | cons first each ih =>
      obtain ⟨firstFits, restFit⟩ := List.forall_mem_cons.mp fit
      obtain ⟨spelled, reads⟩ := first
      obtain ⟨token, more, rfl, notClose⟩ := spelled.starts
      have read := reads firstFits
      simp only [List.cons_append] at read
      rw [List.flatten_cons, List.append_assoc, List.cons_append,
        read_elements_element notClose (read _), List.length_cons, Nat.add_sub_cancel,
        List.drop_left, ih restFit]
      simp only [List.reverse_cons, List.append_assoc, List.cons_append, List.length_cons,
        List.length_append]
      congr 2
      omega

/-- The spelling of a value that fits is read as it, whatever follows. -/
theorem read_at_of_spells {tokens : List Token} {value : Value} (spelled : Spells tokens value)
    {depth : Nat} (fits : value.FitsAt depth) (rest : List Token) :
    readAt depth (tokens ++ rest) = .ok (value, tokens.length) := by
  induction spelled generalizing depth rest with
  | atom spelled =>
      rw [List.singleton_append, read_at_atom fits.room, read_of_atom_spells spelled]
      rfl
  | @list parts elements _ each =>
      obtain ⟨room, elementsFit⟩ := fits_at_list_iff.mp fits
      rw [List.cons_append, read_at_open room, List.append_assoc, List.singleton_append,
        read_elements_of_spells each elementsFit]
      simp [Nat.add_comm]

theorem read_at_iff {depth : Nat} {tokens : List Token} {value : Value} {spanned : Nat} :
    readAt depth tokens = .ok (value, spanned) ↔
      ∃ front rest, tokens = front ++ rest ∧ spanned = front.length ∧
        SpellsAt depth front value := by
  constructor
  · exact spelled_of_read.1 depth tokens value spanned
  · intro spelled
    obtain ⟨front, rest, rfl, rfl, spelled⟩ := spelled
    exact read_at_of_spells spelled.1 spelled.2 rest

/-- What is read spans at least the first token. -/
theorem drop_spanned {depth : Nat} {token : Token} {rest : List Token} {value : Value}
    {spanned : Nat} (read : readAt depth (token :: rest) = .ok (value, spanned)) :
    (token :: rest).drop spanned = rest.drop (spanned - 1) := by
  obtain ⟨front, back, starts, rfl, spelled⟩ := read_at_iff.mp read
  rw [spelled.1.drop_rest starts, starts, List.drop_left]

/-- A spelling is read first, whatever follows it. -/
theorem read_first_of_spells {front : List Token} {value : Value} (spelled : SpellsAt 0 front value)
    (rest : List Token) : readFirst (front ++ rest) = .ok (value, rest) := by
  rw [readFirst, read_at_of_spells spelled.1 spelled.2]
  simp [Except.map]

theorem read_first_iff {tokens rest : List Token} {value : Value} :
    readFirst tokens = .ok (value, rest) ↔
      ∃ front, tokens = front ++ rest ∧ SpellsAt 0 front value := by
  constructor
  · intro read
    rw [readFirst] at read
    cases first : readAt 0 tokens with
    | error fault =>
        rw [first] at read
        contradiction
    | ok result =>
        obtain ⟨front, back, rfl, spans, spelled⟩ := read_at_iff.mp first
        rw [first] at read
        cases read
        rw [spans, List.drop_left]
        exact ⟨front, rfl, spelled⟩
  · intro spelled
    obtain ⟨front, rfl, spelled⟩ := spelled
    exact read_first_of_spells spelled rest

/-- The values that are read onward from some others are spelled one behind the other. -/
theorem spelled_of_read_onward (earlier : List Value) (tokens : List Token) {values : List Value}
    (read : readOnward earlier tokens = .ok values) :
    ∃ parts later, tokens = parts.flatten ∧ values = earlier.reverse ++ later ∧
      List.Forall₂ (SpellsAt 0) parts later := by
  fun_induction readOnward earlier tokens with
  | case1 earlier =>
      cases read
      exact ⟨[], [], rfl, (List.append_nil _).symm, .nil⟩
  | case2 earlier token rest fault fails => contradiction
  | case3 earlier token rest value spanned first ih =>
      obtain ⟨part, back, starts, rfl, spelled⟩ := read_at_iff.mp first
      rw [spelled.1.drop_rest starts] at ih read
      obtain ⟨parts, later, rfl, rfl, each⟩ := ih read
      exact ⟨part :: parts, value :: later, starts, by simp, .cons spelled each⟩

theorem read_onward_of_spells {parts : List (List Token)} {values : List Value}
    (each : List.Forall₂ (SpellsAt 0) parts values) (earlier : List Value) :
    readOnward earlier parts.flatten = .ok (earlier.reverse ++ values) := by
  induction each generalizing earlier with
  | nil =>
      rw [List.flatten_nil, readOnward, List.append_nil]
  | @cons part value parts values spelled each ih =>
      have read := read_at_of_spells spelled.1 spelled.2 parts.flatten
      obtain ⟨token, more, rfl, -⟩ := spelled.1.starts
      rw [List.cons_append] at read
      rw [List.flatten_cons, List.cons_append, readOnward, read]
      simp [ih]

theorem read_all_iff {tokens : List Token} {values : List Value} :
    readAll tokens = .ok values ↔
      ∃ parts, tokens = parts.flatten ∧ List.Forall₂ (SpellsAt 0) parts values := by
  constructor
  · intro read
    obtain ⟨parts, later, spells, rfl, each⟩ := spelled_of_read_onward [] tokens read
    exact ⟨parts, spells, each⟩
  · intro spelled
    obtain ⟨parts, rfl, each⟩ := spelled
    exact read_onward_of_spells each []

/-- Each of the values read is spelled by some of the tokens. -/
theorem spelled_of_read_all {tokens : List Token} {values : List Value}
    (read : readAll tokens = .ok values) {value : Value} (member : value ∈ values) :
    ∃ part, part ⊆ tokens ∧ SpellsAt 0 part value := by
  obtain ⟨parts, rfl, each⟩ := read_all_iff.mp read
  exact Spells.part_of_element each member

theorem spelled_of_read_first {tokens rest : List Token} {value : Value}
    (read : readFirst tokens = .ok (value, rest)) :
    ∃ part, part ⊆ tokens ∧ SpellsAt 0 part value := by
  obtain ⟨front, rfl, spelled⟩ := read_first_iff.mp read
  exact ⟨front, List.subset_append_left front rest, spelled⟩

end Value

end TinyLisp
