import TinyLisp.Proofs.Token.Scanning

/-!
Layout.

Tokens may be written down with any separators before, between and after them. Only a bare atom asks
for one: it has to be ended where the next token is not a closing parenthesis. However the tokens
are laid out, the scanner gives them back.
-/

set_option autoImplicit false

namespace TinyLisp

namespace Token

inductive IsLexeme : Token → Prop
  | openParen : IsLexeme .openParen
  | closeParen : IsLexeme .closeParen
  | bare {spelling : String} (isBare : IsBare spelling.toList) : IsLexeme (.atom spelling)
  | literal {spelling : String} (isLiteral : Text.IsLiteral spelling.toList)
      (free : ParenFree spelling.toList) : IsLexeme (.atom spelling)

def IsBareAtom : Token → Prop
  | .atom spelling => IsBare spelling.toList
  | _ => False

/-- A token and the separators behind it. -/
structure Piece where
  token : Token
  gap : List Char
  lexeme : token.IsLexeme
  blank : ∀ char ∈ gap, char ∈ [' ', '\r', '\n']

/-- Whether every bare atom has a separator or a closing parenthesis behind it. -/
def WellSpaced : List Piece → Prop
  | [] => True
  | piece :: rest =>
      (piece.token.IsBareAtom →
        piece.gap ≠ [] ∨ rest.head?.map Piece.token = some .closeParen) ∧ WellSpaced rest

def written : List Piece → List Char
  | [] => []
  | piece :: rest => piece.token.spelling.toList ++ (piece.gap ++ written rest)

theorem scan_separators {gap : List Char} (blank : ∀ char ∈ gap, char ∈ [' ', '\r', '\n'])
    (rest : List Char) : scan .none (gap ++ rest) = scan .none rest := by
  induction gap with
  | nil => rfl
  | cons char gap ih =>
      obtain ⟨separator, gapBlank⟩ := List.forall_mem_cons.mp blank
      rw [List.cons_append, scan_of_advances (.skips separator), ih gapBlank]
      rfl

/-- A token is scanned as itself, where a bare atom is followed by something that ends it. -/
theorem scan_lexeme {token : Token} (lexeme : token.IsLexeme) {rest : List Char}
    (ended : token.IsBareAtom → ∃ ender following, rest = ender :: following ∧ IsEnder ender) :
    scan .none (token.spelling.toList ++ rest) = emit [token] (scan .none rest) := by
  cases lexeme with
  | openParen => rfl
  | closeParen => rfl
  | @bare spelling isBare =>
      obtain ⟨ender, following, starts, ends⟩ := ended isBare
      have scanned := scan_bare_atom isBare ends following
      rw [String.ofList_toList] at scanned
      rw [starts]
      exact scanned
  | @literal spelling isLiteral free =>
      have scanned := scan_literal isLiteral free rest
      rw [String.ofList_toList] at scanned
      exact scanned

theorem bare_atom_ended {piece : Piece} {rest : List Piece} (spaced : WellSpaced (piece :: rest))
    (isBare : piece.token.IsBareAtom) :
    ∃ ender following, piece.gap ++ written rest = ender :: following ∧ IsEnder ender := by
  cases gap : piece.gap with
  | cons char chars =>
      have separator := piece.blank char (by simp [gap])
      exact ⟨char, chars ++ written rest, rfl, .inr separator⟩
  | nil =>
      have closing : rest.head?.map Piece.token = some .closeParen := by
        rcases spaced.1 isBare with nonempty | closing
        · contradiction
        · exact closing
      cases rest with
      | nil => contradiction
      | cons next rest =>
          have close : next.token = .closeParen := Option.some.inj closing
          refine ⟨')', next.gap ++ written rest, ?_, .inl rfl⟩
          rw [written, close]
          rfl

theorem scan_written {pieces : List Piece} (spaced : WellSpaced pieces) :
    scan .none (written pieces) = (pieces.map Piece.token, .none) := by
  induction pieces with
  | nil => rfl
  | cons piece rest ih =>
      rw [written, scan_lexeme piece.lexeme (bare_atom_ended spaced), scan_separators piece.blank,
        ih spaced.2]
      rfl

/-- However tokens are laid out, the scanner gives them back. -/
theorem layout_makes_no_difference {lead : List Char}
    (leadBlank : ∀ char ∈ lead, char ∈ [' ', '\r', '\n']) {pieces : List Piece}
    (spaced : WellSpaced pieces) :
    tokenize (String.ofList (lead ++ written pieces)) = pieces.map Piece.token := by
  rw [tokenize, String.toList_ofList, scan_separators leadBlank, scan_written spaced]

theorem tight_layout_is_scanned :
    let pieces : List Piece :=
      [⟨.openParen, [], .openParen, nofun⟩,
        ⟨.atom "a\"b", [], .bare ⟨by simp, by simp, by simp [IsOrdinary]⟩, nofun⟩,
        ⟨.closeParen, [], .closeParen, nofun⟩,
        ⟨.atom "\"x \\\" y\"", [], .literal (by decide) ⟨by simp, by simp⟩, nofun⟩,
        ⟨.atom "c", ['\r', '\n'], .bare ⟨by simp, by simp, by simp [IsOrdinary]⟩,
          by simp⟩]
    WellSpaced pieces ∧
      String.ofList ([' '] ++ written pieces) = " (a\"b)\"x \\\" y\"c\r\n" ∧
      tokenize (String.ofList ([' '] ++ written pieces)) =
        [.openParen, .atom "a\"b", .closeParen, .atom "\"x \\\" y\"", .atom "c"] := by
  intro pieces
  have notBare : ¬IsBare "\"x \\\" y\"".toList := fun isBare => isBare.unquoted (by simp)
  have spaced : WellSpaced pieces :=
    ⟨nofun, fun _ => .inr rfl, nofun, fun isBare => absurd isBare notBare,
      fun _ => .inl (by simp), trivial⟩
  have leadBlank : ∀ char ∈ [' '], char ∈ [' ', '\r', '\n'] := by simp
  exact ⟨spaced, by cbv, layout_makes_no_difference leadBlank spaced⟩

end Token

end TinyLisp
