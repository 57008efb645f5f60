import Karel.Grammar
import Karel.ParseError

/-!
# Outlooks

Whether some tokens can go on to be a program depends on little: which bodies are open, whether arms
may follow each of them, and what is awaited next. An outlook is that much, and each token
takes it to the next outlook or is at fault.

## Main definitions

- `Awaited` — what may come next
- `Outlook` — the open bodies, and what is awaited
- `Outlook.step`, `Outlook.run` — the outlook behind a token, and behind some tokens

## Main results

- `Outlook.run_append`, `Outlook.exists_of_run_append` — tokens one part after the other
- `Outlook.exists_of_run_eq_error` — the token at fault, and the outlook at it
-/

namespace Karel.Grammar

/-- What may come next. -/
inductive Awaited where
  /-- A statement or the end of the block, and also an arm if an `if` may go on. -/
  | statement (arms : Bool)
  /-- The end of a simple statement. -/
  | ending
  | count
  | condition (after : Keyword)
  | procedureName
  /-- The body of a compound statement from its colon on, from its `newline` on, or from its
      `indent` on. Arms may follow the body or not. -/
  | colon (arms : Bool)
  | newline (arms : Bool)
  | indent (arms : Bool)
  /-- Nothing, as the input has ended. -/
  | nothing
  deriving DecidableEq, Repr

/-- The open bodies, innermost first, each with whether arms may follow it, and what is awaited. -/
structure Outlook where
  bodies : List Bool
  awaited : Awaited
  deriving DecidableEq, Repr

namespace Outlook

/-- The outlook before a program. -/
def start : Outlook where
  bodies := []
  awaited := .statement false

/-- The outlook behind a program. -/
def finished : Outlook where
  bodies := []
  awaited := .nothing

/-- The outlook behind the token that ends a block. -/
def leave : List Bool → TokenKind → Except ParseFault Outlook
  | arms :: bodies, .dedent => .ok { bodies, awaited := .statement arms }
  | [], .eof => .ok finished
  | _, _ => .error .expectedStatement

/-- The outlook behind a token where a statement is awaited. -/
def stepStatement (bodies : List Bool) (arms : Bool) :
    TokenKind → Except ParseFault Outlook
  | .newline => .ok { bodies, awaited := .statement arms }
  | .identifier _ => .ok { bodies, awaited := .ending }
  | .keyword .«do» => .ok { bodies, awaited := .count }
  | .keyword .«if» => .ok { bodies, awaited := .condition .«if» }
  | .keyword .«while» => .ok { bodies, awaited := .condition .«while» }
  | .keyword .define => .ok { bodies, awaited := .procedureName }
  | .keyword .elif =>
    if arms then .ok { bodies, awaited := .condition .elif } else .error .misplacedElif
  | .keyword .«else» =>
    if arms then .ok { bodies, awaited := .colon false } else .error .misplacedElse
  | .indent => .error .unexpectedIndent
  | .number _ | .colon => .error .expectedStatement
  | .dedent => leave bodies .dedent
  | .eof => leave bodies .eof

/-- The outlook behind a token, or what is wrong with it. -/
def step (capabilities : Capabilities) (outlook : Outlook) (kind : TokenKind) :
    Except ParseFault Outlook :=
  match outlook.awaited with
  | .statement arms => stepStatement outlook.bodies arms kind
  | .ending =>
    match kind with
    | .newline => .ok { outlook with awaited := .statement false }
    | .dedent | .eof => leave outlook.bodies kind
    | _ => .error .expectedNewline
  | .count =>
    match kind.value? with
    | some (_ + 1) => .ok { outlook with awaited := .colon false }
    | _ => .error .expectedNumber
  | .condition after =>
    match kind with
    | .identifier name =>
      -- the body of a loop has no arms
      if capabilities.isCondition name then
        .ok { outlook with awaited := .colon (after ≠ .«while») }
      else .error (.unknownCondition name)
    | _ => .error (.expectedCondition after)
  | .procedureName =>
    match kind with
    | .identifier _ => .ok { outlook with awaited := .colon false }
    | _ => .error .expectedProcedureName
  | .colon arms =>
    if kind = .colon then .ok { outlook with awaited := .newline arms } else .error .expectedColon
  | .newline arms =>
    match kind with
    | .newline => .ok { outlook with awaited := .indent arms }
    | .eof => .error .expectedBlock
    | _ => .error .expectedNewline
  | .indent arms =>
    if kind = .indent then .ok { bodies := arms :: outlook.bodies, awaited := .statement false }
    else .error .expectedBlock
  | .nothing => .error .expectedStatement

/-- The outlook behind some tokens, or the first of them that is at fault. -/
def run (capabilities : Capabilities) : Outlook → List Token → Except ParseError Outlook
  | outlook, [] => .ok outlook
  | outlook, token :: tokens =>
    match outlook.step capabilities token.kind with
    | .ok next => next.run capabilities tokens
    | .error fault => .error { fault, found := token }

variable {capabilities : Capabilities} {outlook next : Outlook} {token : Token}
  {tokens more : List Token} {error : ParseError}

theorem run_cons_of_ok (h : outlook.step capabilities token.kind = .ok next) :
    outlook.run capabilities (token :: tokens) = next.run capabilities tokens := by
  rw [run, h]

theorem run_cons_of_error {fault : ParseFault}
    (h : outlook.step capabilities token.kind = .error fault) :
    outlook.run capabilities (token :: tokens) = .error { fault, found := token } := by
  rw [run, h]

theorem run_append (h : outlook.run capabilities tokens = .ok next) (more : List Token) :
    outlook.run capabilities (tokens ++ more) = next.run capabilities more := by
  induction tokens generalizing outlook with
  | nil =>
    obtain rfl : outlook = next := Except.ok.inj h
    rfl
  | cons token tokens ih =>
    cases hstep : outlook.step capabilities token.kind with
    | ok behind =>
      rw [run_cons_of_ok hstep] at h
      rw [List.cons_append, run_cons_of_ok hstep]
      exact ih h
    | error fault =>
      rw [run_cons_of_error hstep] at h
      cases h

/-- A fault is one whatever follows the tokens in which it shows. -/
theorem run_append_of_error (h : outlook.run capabilities tokens = .error error)
    (more : List Token) : outlook.run capabilities (tokens ++ more) = .error error := by
  induction tokens generalizing outlook with
  | nil => cases h
  | cons token tokens ih =>
    cases hstep : outlook.step capabilities token.kind with
    | ok behind =>
      rw [run_cons_of_ok hstep] at h
      rw [List.cons_append, run_cons_of_ok hstep]
      exact ih h
    | error fault =>
      rw [run_cons_of_error hstep] at h
      rw [List.cons_append, run_cons_of_error hstep, h]

/-- A run over two parts is a run over the first one and then over the second one. -/
theorem exists_of_run_append (h : outlook.run capabilities (tokens ++ more) = .ok next) :
    ∃ reached, outlook.run capabilities tokens = .ok reached ∧
      reached.run capabilities more = .ok next := by
  cases htokens : outlook.run capabilities tokens with
  | ok reached =>
    rw [run_append htokens] at h
    exact ⟨reached, rfl, h⟩
  | error error =>
    rw [run_append_of_error htokens] at h
    cases h

theorem exists_of_run_cons {token : Token}
    (h : outlook.run capabilities (token :: tokens) = .ok next) :
    ∃ behind, outlook.step capabilities token.kind = .ok behind ∧
      behind.run capabilities tokens = .ok next := by
  cases hstep : outlook.step capabilities token.kind with
  | ok behind =>
    rw [run_cons_of_ok hstep] at h
    exact ⟨behind, rfl, h⟩
  | error fault =>
    rw [run_cons_of_error hstep] at h
    cases h

/-- The tokens before the one at fault lead to an outlook in which that one is not awaited. -/
theorem exists_of_run_eq_error (h : outlook.run capabilities tokens = .error error) :
    ∃ front behind reached, tokens = front ++ error.found :: behind ∧
      outlook.run capabilities front = .ok reached ∧
      reached.step capabilities error.found.kind = .error error.fault := by
  induction tokens generalizing outlook with
  | nil => cases h
  | cons token tokens ih =>
    cases hstep : outlook.step capabilities token.kind with
    | ok after =>
      rw [run_cons_of_ok hstep] at h
      obtain ⟨front, behind, reached, rfl, hfront, hfault⟩ := ih h
      refine ⟨token :: front, behind, reached, rfl, ?_, hfault⟩
      rw [run_cons_of_ok hstep]
      exact hfront
    | error fault =>
      rw [run_cons_of_error hstep] at h
      obtain rfl := Except.error.inj h
      exact ⟨[], tokens, outlook, rfl, rfl, hstep⟩

end Outlook

end Karel.Grammar
