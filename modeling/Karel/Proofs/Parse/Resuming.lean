import Karel.Proofs.Parse.Progress

/-!
# Resuming

A session may be asked for tokens, for the number of its tokens, and for programs, in any order, and
it may go on after a fault. Whatever was asked, it stands on a token of its source text. It never
goes back, and a fault takes it further, so asking for programs again and again comes to an end.

## Main definitions

- `TokenStream.cursor` — how many tokens have been read
- `Parse.Request` — what may be asked of a session
- `Parse.Session.afterAll` — the session after some requests
- `Parse.Session.IsWithin` — a session that stands somewhere in a source text

## Main results

- `Parse.Session.ahead_after_suffix` — no request goes back
- `Parse.Session.IsWithin.after`, `Parse.Session.IsWithin.afterAll` — what requests preserve
- `Parse.Session.IsWithin.ahead_afterAll_replicate` — how many programs lead to the end
- `Parse.Session.resumes` — a session after any requests
-/

namespace Karel

/-- The number of tokens that have been read. -/
def TokenStream.cursor (stream : TokenStream) : Nat :=
  stream.tokens.length - stream.ahead.length

namespace Parse

/-- What may be asked of a session: its next token, the number of its tokens, or a program. -/
inductive Request where
  | token
  | count
  | program
  deriving DecidableEq, Repr

namespace Session

/-- The session after a request. -/
def after (session : Session) : Request → Session
  | .token => session.next.2
  | .count => session
  | .program => session.parse.2

/-- The session after some requests, one after the other. -/
def afterAll (session : Session) (requests : List Request) : Session :=
  requests.foldl after session

/-- A session that stands somewhere in the tokens of a source text. -/
structure IsWithin (session : Session) (source : String) : Prop where
  tokens_eq : session.stream.tokens = scan source
  endLine_eq : session.stream.endLine = endLine source
  suffix : session.stream.ahead <:+ scan source

variable {session : Session} {source : String}

/-- A request takes a session forward, or leaves it in place. -/
theorem ahead_after_suffix (session : Session) (request : Request) :
    (session.after request).stream.ahead <:+ session.stream.ahead := by
  cases request with
  | token => exact List.tail_suffix _
  | count => exact List.suffix_rfl
  | program => exact rest_program.trans (List.tail_suffix _)

theorem isWithin_start (capabilities : Capabilities) (source : String) :
    (start capabilities source).IsWithin source :=
  ⟨rfl, rfl, List.suffix_rfl⟩

/-- After a request a session still stands in its source text. -/
theorem IsWithin.after (h : session.IsWithin source) (request : Request) :
    (session.after request).IsWithin source := by
  have hsuffix := (session.ahead_after_suffix request).trans h.suffix
  cases request with
  | token => exact ⟨h.tokens_eq, h.endLine_eq, hsuffix⟩
  | count => exact ⟨h.tokens_eq, h.endLine_eq, hsuffix⟩
  | program => exact ⟨h.tokens_eq, h.endLine_eq, hsuffix⟩

theorem IsWithin.afterAll (h : session.IsWithin source) (requests : List Request) :
    (session.afterAll requests).IsWithin source := by
  induction requests generalizing session with
  | nil => exact h
  | cons request requests ih => exact ih (h.after request)

-- ════════════════════════════════════════════════════════════════════════
-- Where a session stands
-- ════════════════════════════════════════════════════════════════════════

namespace IsWithin

theorem toList_eq (h : session.IsWithin source) :
    session.stream.toList = (TokenStream.ofSource source).toList := by
  rw [TokenStream.toList, h.tokens_eq, h.endLine_eq]
  rfl

theorem kind_ne_eof (h : session.IsWithin source) :
    ∀ token ∈ session.stream.ahead, token.kind ≠ .eof :=
  fun _ hmem => kind_ne_eof_of_mem_scan (h.suffix.subset hmem)

/-- The tokens that have been read and those that are ahead are all there are. -/
theorem cursor_add_length (h : session.IsWithin source) :
    session.stream.cursor + session.stream.ahead.length = (scan source).length := by
  have hle := h.suffix.length_le
  rw [TokenStream.cursor, h.tokens_eq]
  omega

theorem count_eq (h : session.IsWithin source) : session.count = (scan source).length := by
  rw [count, TokenStream.count, h.tokens_eq]

theorem cursor_lt (h : session.IsWithin source) :
    session.stream.cursor < session.stream.toList.length := by
  have hcursor := h.cursor_add_length
  rw [TokenStream.toList, List.length_append, List.length_singleton, h.tokens_eq]
  omega

theorem getElem?_cursor (h : session.IsWithin source) :
    session.stream.toList[session.stream.cursor]? = some session.next.1 := by
  obtain ⟨front, hfront⟩ := h.suffix
  rw [← h.tokens_eq] at hfront
  have hcursor : session.stream.cursor = front.length := by
    rw [TokenStream.cursor, ← hfront, List.length_append]
    omega
  rw [hcursor, TokenStream.toList, ← hfront, List.append_assoc,
    List.getElem?_append_right (Nat.le_refl _), Nat.sub_self]
  show _ = some (session.stream.ahead.headD (Token.endOfInput session.stream.endLine))
  cases session.stream.ahead with
  | nil => rfl
  | cons token ahead => rfl

/-- The end of the input is next where nothing is ahead, and nowhere else. -/
theorem kind_next_eq_eof_iff (h : session.IsWithin source) :
    session.next.1.kind = .eof ↔ session.stream.ahead = [] := by
  let context : ParseContext :=
    { capabilities := session.capabilities, endLine := session.stream.endLine }
  show (firstToken context session.stream.ahead).kind = .eof ↔ _
  constructor
  · exact eq_nil_of_firstToken_kind h.kind_ne_eof
  · intro hahead
    rw [hahead]
    rfl

end IsWithin

-- ════════════════════════════════════════════════════════════════════════
-- The end of the input
-- ════════════════════════════════════════════════════════════════════════

/-- A session at the end of the input stays there. -/
theorem after_eq_self (hahead : session.stream.ahead = []) (request : Request) :
    session.after request = session := by
  obtain ⟨capabilities, tokens, ahead, endLine⟩ := session
  obtain rfl : ahead = [] := hahead
  cases request with
  | token => rfl
  | count => rfl
  | program => rfl

theorem afterAll_eq_self (hahead : session.stream.ahead = []) (requests : List Request) :
    session.afterAll requests = session := by
  induction requests with
  | nil => rfl
  | cons request requests ih =>
    show (session.after request).afterAll requests = session
    rw [after_eq_self hahead]
    exact ih

theorem parse_eq_ok_nil (hahead : session.stream.ahead = []) : session.parse.1 = .ok [] := by
  let context : ParseContext :=
    { capabilities := session.capabilities, endLine := session.stream.endLine }
  show (program context session.stream.ahead).result = .ok []
  rw [hahead, program_nil]

/-- After a program that is read, a session stands at the end of the input. -/
theorem IsWithin.ahead_parse_of_ok {block : Block} (h : session.IsWithin source)
    (hparse : session.parse.1 = .ok block) : session.parse.2.stream.ahead = [] :=
  rest_program_of_ok h.kind_ne_eof hparse

/-- After a program that is rejected, a session stands further on. -/
theorem length_ahead_parse_of_error {error : ParseError} (hparse : session.parse.1 = .error error) :
    session.parse.2.stream.ahead.length < session.stream.ahead.length :=
  length_rest_program_of_fails hparse

/-- Asking for as many programs as there are tokens ahead leads to the end of the input. -/
theorem IsWithin.ahead_afterAll_replicate (h : session.IsWithin source) {calls : Nat}
    (hcalls : session.stream.ahead.length ≤ calls) :
    (session.afterAll (List.replicate calls .program)).stream.ahead = [] := by
  induction calls generalizing session with
  | zero => exact List.eq_nil_of_length_eq_zero (Nat.le_zero.mp hcalls)
  | succ calls ih =>
    apply ih (h.after .program)
    show session.parse.2.stream.ahead.length ≤ calls
    cases hparse : session.parse.1 with
    | ok block =>
      rw [h.ahead_parse_of_ok hparse]
      exact Nat.zero_le calls
    | error error =>
      have hlength := length_ahead_parse_of_error hparse
      omega

/-- A session may be resumed after any requests. It stands on a token of its source text, goes back
    at no request, and knows how many tokens there are before the end of the input. At the end it
    stays, and answers with the end of the input and with the empty program. A program that is read
    takes it there, and one that is rejected takes it further on. So if it is asked for as many
    programs as there are tokens left, every later one is read. -/
theorem resumes (capabilities : Capabilities) (source : String) (requests : List Request) :
    let session := (start capabilities source).afterAll requests
    let tokens := (TokenStream.ofSource source).toList
    session.stream.cursor < tokens.length ∧
    tokens[session.stream.cursor]? = some session.next.1 ∧
    (∀ request, session.stream.cursor ≤ (session.after request).stream.cursor) ∧
    session.count = (Grammar.beforeEnd tokens).length ∧
    (session.next.1.kind = .eof → ∀ more : List Request,
      (session.afterAll more).next.1.kind = .eof ∧ (session.afterAll more).parse.1 = .ok []) ∧
    (∀ block, session.parse.1 = .ok block → session.parse.2.next.1.kind = .eof) ∧
    (∀ error, session.parse.1 = .error error →
      session.stream.cursor < session.parse.2.stream.cursor) ∧
    ∀ calls, session.count - session.stream.cursor ≤ calls →
      (session.afterAll (List.replicate calls .program)).parse.1 = .ok [] := by
  intro session tokens
  have h : session.IsWithin source := (isWithin_start capabilities source).afterAll requests
  have hcursor := h.cursor_add_length
  refine ⟨?_, ?_, ?_, ?_, ?_, ?_, ?_, ?_⟩
  · show _ < (TokenStream.ofSource source).toList.length
    rw [← h.toList_eq]
    exact h.cursor_lt
  · show (TokenStream.ofSource source).toList[_]? = _
    rw [← h.toList_eq]
    exact h.getElem?_cursor
  · intro request
    have hafter := (h.after request).cursor_add_length
    have hlength := (session.ahead_after_suffix request).length_le
    omega
  · have htokens : Grammar.beforeEnd tokens = scan source :=
      Grammar.beforeEnd_append (fun _ hmem => kind_ne_eof_of_mem_scan hmem) _
    rw [htokens, h.count_eq]
  · intro hend more
    rw [afterAll_eq_self (h.kind_next_eq_eof_iff.mp hend)]
    exact ⟨hend, parse_eq_ok_nil (h.kind_next_eq_eof_iff.mp hend)⟩
  · intro block hparse
    exact (h.after .program).kind_next_eq_eof_iff.mpr (h.ahead_parse_of_ok hparse)
  · intro error hparse
    have hafter : session.parse.2.stream.cursor + session.parse.2.stream.ahead.length =
        (scan source).length := (h.after .program).cursor_add_length
    have hlength := length_ahead_parse_of_error hparse
    omega
  · intro calls hcalls
    apply parse_eq_ok_nil
    apply h.ahead_afterAll_replicate
    rw [h.count_eq] at hcalls
    omega

/-- Resumed from inside a header, the reading of a text with many faults goes from fault to fault,
    and ends. So it does from the beginning of the text. -/
theorem resumes_inside_header :
    let source := "do 2:\nelse:\n  move\nmove 3"
    let session := (start Capabilities.standard source).afterAll [.token, .count, .program]
    let last := (start Capabilities.standard source).afterAll (List.replicate 6 .program)
    session.next.1 = ⟨.colon, 0⟩ ∧
    session.parse.1 = .error { fault := .expectedStatement, found := ⟨.colon, 0⟩ } ∧
    session.stream.cursor < session.parse.2.stream.cursor ∧
    session.count = 13 ∧
    (session.afterAll (List.replicate 11 .program)).parse.1 = .ok [] ∧
    last.next.1.kind = .eof ∧
    (last.afterAll [.program, .token]).parse.1 = .ok [] := by
  obtain ⟨-, -, -, -, -, -, hfurther, hends⟩ :=
    resumes Capabilities.standard "do 2:\nelse:\n  move\nmove 3" [.token, .count, .program]
  obtain ⟨-, -, -, -, hstays, -, -, -⟩ :=
    resumes Capabilities.standard "do 2:\nelse:\n  move\nmove 3" (List.replicate 6 .program)
  exact ⟨rfl, rfl, hfurther _ rfl, rfl, hends 11 (Nat.le_refl 11), rfl,
    (hstays rfl [.program, .token]).2⟩

end Session

end Parse

end Karel
