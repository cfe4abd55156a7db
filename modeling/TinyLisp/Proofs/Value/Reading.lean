import TinyLisp.Proofs.Token.Scanning
import TinyLisp.Proofs.Value.Grammar

/-!
Reading gives data.

What is read is spelled by some of the tokens, and a spelling has no nodes but lists and what single
tokens are read as. The atoms of a source text have no parentheses, so each value that is read from
its tokens is a datum.
-/

set_option autoImplicit false

namespace TinyLisp

namespace Text

/-- The contents of a quoted text have no characters that the text itself has not. -/
theorem mem_of_unescape {spelling contents : List Char}
    (read : unescape? spelling = some contents) : ∀ char ∈ contents, char ∈ spelling := by
  fun_induction unescape? spelling generalizing contents with
  | case1 => contradiction
  | case2 =>
      intro char member
      rw [← Option.some.inj read] at member
      contradiction
  | case3 => contradiction
  | case4 => contradiction
  | case5 first rest ih =>
      obtain ⟨inner, innerRead, rfl⟩ := Option.map_eq_some_iff.mp read
      have inside := ih innerRead
      intro char member
      by_cases special : first = '"' ∨ first = '\\'
      · rw [if_pos special] at member
        rcases List.mem_cons.mp member with rfl | member
        · simp
        · simp [inside char member]
      · rw [if_neg special] at member
        rcases List.mem_cons.mp member with rfl | member
        · simp
        · rcases List.mem_cons.mp member with rfl | member
          · simp
          · simp [inside char member]
  | case6 first rest notQuote notLone notBackslash ih =>
      obtain ⟨inner, innerRead, rfl⟩ := Option.map_eq_some_iff.mp read
      intro char member
      rcases List.mem_cons.mp member with rfl | member
      · exact List.mem_cons_self
      · exact List.mem_cons_of_mem _ (ih innerRead char member)

theorem mem_of_unquote {spelling contents : List Char} (read : unquote? spelling = some contents) :
    ∀ char ∈ contents, char ∈ spelling := by
  unfold unquote? at read
  split at read
  · intro char member
    exact List.mem_cons_of_mem _ (mem_of_unescape read char member)
  · contradiction

end Text

/-- What an atom is read as: the text that it quotes, a number, or the symbol of its spelling. -/
theorem read_atom_cases {spelling : String} {value : Value} (read : readAtom spelling = .ok value) :
    (∃ contents, Text.unquote? spelling.toList = some contents ∧
        value = .text (String.ofList contents)) ∨
      (∃ number, value = .number number) ∨ value = .symbol spelling := by
  cases atom_spells_of_read read with
  | text quoted => exact .inl ⟨_, quoted, rfl⟩
  | number numeral => exact .inr (.inl ⟨_, rfl⟩)
  | symbol readable => exact .inr (.inr rfl)

namespace Value

/-- A list, or what one of some tokens is read as. -/
def ReadFrom (tokens : List Token) (node : Value) : Prop :=
  (∃ elements, node = .list elements) ∨
    ∃ spelling, .atom spelling ∈ tokens ∧ readAtom spelling = .ok node

def MadeFrom (tokens : List Token) (value : Value) : Prop :=
  ∀ depth node, value.HasNode depth node → node.ReadFrom tokens

/-- A spelling adds nothing to what its tokens say but lists. -/
theorem made_from_of_spells {part tokens : List Token} {value : Value}
    (spelled : Spells part value) (inside : part ⊆ tokens) : value.MadeFrom tokens := by
  induction spelled with
  | @atom spelling value spelled =>
      have readFrom : value.ReadFrom tokens :=
        .inr ⟨spelling, inside List.mem_cons_self, read_of_atom_spells spelled⟩
      have leaf : ∀ depth node, ¬value.HasNode (depth + 1) node := by
        cases spelled <;> nofun
      exact forall_nodes_of_leaf readFrom leaf
  | @list parts elements _ each =>
      rw [MadeFrom, forall_nodes_list_iff]
      constructor
      · exact .inl ⟨elements, rfl⟩
      · intro element member
        obtain ⟨part, within, _, made⟩ := Spells.part_of_element each member
        apply made
        intro token listed
        exact inside (List.mem_cons_of_mem _ (List.mem_append_left _ (within listed)))

theorem datum_node_of_read_from {tokens : List Token} {node : Value}
    (free : ∀ token ∈ tokens, token.ParenFreeAtom) (made : node.ReadFrom tokens) :
    node.IsDatumNode := by
  rcases made with ⟨elements, rfl⟩ | ⟨spelling, listed, read⟩
  · trivial
  · have spellingFree : ParenFree spelling.toList := free _ listed
    cases atom_spells_of_read read with
    | text quoted =>
        rw [IsDatumNode, String.toList_ofList]
        exact spellingFree.of_subset (Text.mem_of_unquote quoted)
    | number numeral => trivial
    | symbol readable => exact readable

theorem datum_of_spells {part tokens : List Token} {value : Value}
    (free : ∀ token ∈ tokens, token.ParenFreeAtom) (inside : part ⊆ tokens)
    (spelled : SpellsAt 0 part value) : value.Datum := by
  intro below node held
  have made := made_from_of_spells spelled.1 inside below node held
  exact ⟨spelled.2 below node held, datum_node_of_read_from free made⟩

theorem datum_of_read_all {source : String} {values : List Value}
    (read : readAll (Token.tokenize source) = .ok values) : ∀ value ∈ values, value.Datum := by
  intro value member
  obtain ⟨part, inside, spelled⟩ := spelled_of_read_all read member
  exact datum_of_spells (Token.paren_free_tokenize source) inside spelled

theorem datum_of_read_first {source : String} {value : Value} {rest : List Token}
    (read : readFirst (Token.tokenize source) = .ok (value, rest)) : value.Datum := by
  obtain ⟨part, inside, spelled⟩ := spelled_of_read_first read
  exact datum_of_spells (Token.paren_free_tokenize source) inside spelled

theorem made_from_of_read_all {tokens : List Token} {values : List Value}
    (read : readAll tokens = .ok values) : ∀ value ∈ values, value.MadeFrom tokens := by
  intro value member
  obtain ⟨part, inside, spelled⟩ := spelled_of_read_all read member
  exact made_from_of_spells spelled.1 inside

end Value

end TinyLisp
