import Karel.Proofs.Layout.Kinds
import Karel.Proofs.Parse.Completeness
import Karel.Proofs.Parse.Soundness

/-!
# The parser and the grammar agree

A program is read exactly when the grammar derives it, and the tree that is read is the one that
is derived. As a reading has one result, a list of tokens has at most one tree.

## Main definitions

- `Parse.Session.afterTokens` — a session from which some tokens have been read

## Main results

- `parseProgram_eq_ok_iff` — the tree of a source text is the one that is derived
- `Parse.Session.parse_eq_ok_iff_derivation` — the same at any place of a source text
-/

namespace Karel

open Grammar

namespace Grammar

/-- A list of tokens has at most one tree. -/
theorem ProgramDerivation.block_unique {capabilities : Capabilities} {tokens : List Token}
    {first second : Block} (derivation : ProgramDerivation capabilities tokens first)
    (other : ProgramDerivation capabilities tokens second) : first = second := by
  let context : ParseContext := { capabilities, endLine := 0 }
  have hend (line : Nat) :
      (Parse.firstToken context (beforeEnd [Token.endOfInput line])).kind.closesBlock = true :=
    rfl
  have hfirst := derivation.root.reads (hend _) _ (Nat.lt_succ_self _)
  have hsecond := other.root.reads (hend _) _ (Nat.lt_succ_self _)
  exact (hfirst.unique hsecond).1

end Grammar

namespace Parse

variable {context : ParseContext} {tokens : List Token}

/-- A program is read as a block that reaches to the end of the input. -/
theorem reads_programWithin {bound : Nat} {block : Block} {rest : List Token} :
    Reads (programWithin bound) context tokens block rest ↔
      ∃ middle, Reads (Parse.block bound) context tokens block middle ∧
        (firstToken context middle).kind = .eof ∧ middle.tail = rest := by
  rw [programWithin, reads_bind]
  constructor
  · rintro ⟨found, middle, hblock, h⟩
    obtain ⟨behind, hend, h⟩ := reads_bind_unit.mp h
    obtain ⟨rfl, rfl⟩ := reads_pure.mp h
    exact ⟨middle, hblock, reads_expect_eof.mp hend⟩
  · rintro ⟨middle, hblock, hend⟩
    refine ⟨block, middle, hblock, ?_⟩
    exact reads_bind_unit.mpr ⟨rest, reads_expect_eof.mpr hend, reads_pure.mpr ⟨rfl, rfl⟩⟩

theorem eq_nil_of_firstToken_kind (h : ∀ token ∈ tokens, token.kind ≠ .eof)
    (hend : (firstToken context tokens).kind = .eof) : tokens = [] := by
  cases tokens with
  | nil => rfl
  | cons token tokens => exact absurd hend (h token List.mem_cons_self)

theorem mem_of_consumes_ended {rest : List Token} {token : Token}
    (h : Consumes (context.ended tokens) (context.ended rest)) (hmem : token ∈ rest) :
    token ∈ tokens := by
  obtain ⟨used, hused, -⟩ := h
  rw [ParseContext.ended, ParseContext.ended, ← List.append_assoc] at hused
  rw [List.append_cancel_right hused]
  exact List.mem_append_right used hmem

/-- Reading a program succeeds with a tree exactly when the grammar derives that tree from the
    tokens ahead and the end of the input. -/
theorem program_eq_ok_iff (h : ∀ token ∈ tokens, token.kind ≠ .eof) (block : Block) :
    (program context tokens).result = .ok block ↔
      Nonempty (ProgramDerivation context.capabilities (context.ended tokens) block) := by
  constructor
  · intro hresult
    obtain ⟨middle, hblock, hend, -⟩ := reads_programWithin.mp ⟨hresult, rfl⟩
    obtain ⟨root⟩ := (blockSound_and_armsSound context _).1 hblock
    have hmiddle : middle = [] := eq_nil_of_firstToken_kind
      (fun token hmem => h token (mem_of_consumes_ended root.consumes hmem)) hend
    rw [hmiddle] at root
    exact ⟨{ endLine := context.endLine, root }⟩
  · rintro ⟨derivation⟩
    have hahead : beforeEnd (context.ended tokens) = tokens := beforeEnd_append h _
    have hblock : Reads (Parse.block (tokens.length + 1)) context _ block _ :=
      derivation.root.reads rfl (tokens.length + 1)
      (by rw [hahead]; exact Nat.lt_succ_self _)
    rw [hahead] at hblock
    exact (reads_programWithin.mpr ⟨_, hblock, rfl, rfl⟩).1

end Parse

/-- A source text has a tree exactly when the grammar derives it from the tokens of the text. -/
theorem parseProgram_eq_ok_iff {capabilities : Capabilities} {source : String} {block : Block} :
    parseProgram capabilities source = .ok block ↔
      Nonempty (ProgramDerivation capabilities (TokenStream.ofSource source).toList block) :=
  Parse.program_eq_ok_iff (fun _ hmem => kind_ne_eof_of_mem_scan hmem) block

namespace Parse.Session

/-- A session from which a number of tokens have been read. -/
def afterTokens (session : Session) : Nat → Session
  | 0 => session
  | count + 1 => (session.afterTokens count).next.2

theorem afterTokens_start (capabilities : Capabilities) (source : String) (count : Nat) :
    (start capabilities source).afterTokens count =
      { capabilities, stream :=
        { TokenStream.ofSource source with ahead := (scan source).drop count } } := by
  induction count with
  | zero => rfl
  | succ count ih =>
    rw [afterTokens, ih]
    simp [next, TokenStream.next, TokenStream.advance]

/-- A program is read from any place of a source text that tokens have been read up to, exactly
    when the grammar derives it from the tokens that remain, and it has the tree that is derived.
    No list of tokens has two trees. -/
theorem parse_eq_ok_iff_derivation (capabilities : Capabilities) (source : String) (count : Nat) :
    (∀ block, (((start capabilities source).afterTokens count).parse).1 = .ok block ↔
      Nonempty (ProgramDerivation capabilities
        ((start capabilities source).afterTokens count).stream.remaining block)) ∧
    ∀ tokens first second, ProgramDerivation capabilities tokens first →
      ProgramDerivation capabilities tokens second → first = second := by
  constructor
  · intro block
    rw [afterTokens_start]
    exact program_eq_ok_iff
      (fun _ hmem => kind_ne_eof_of_mem_scan (List.mem_of_mem_drop hmem)) block
  · intro tokens first second derivation other
    exact derivation.block_unique other

end Parse.Session

end Karel
