import RoutineFlow.Expr.Automaton
import RoutineFlow.Expr.Lexer
import RoutineFlow.Expr.OfTree

/-!
Parsing runs the automaton over the tokens that each state asks for. What a syntax problem says about
expected tokens is read off the state in which it arose.
-/

namespace RoutineFlow.Expr

/-- A state that was entered, and the derivation that led there. -/
structure Frame where
  state : Nat
  tree : Tree

/-- The frames entered so far, the last one first. -/
abbrev Stack := List Frame

namespace Stack

def state : Stack → Nat
  | [] => 0
  | frame :: _ => frame.state

/-- Replaces the frames of a rule's body by one for its phrase. -/
def reduce? (stack : Stack) (rule : Rule) : Option Stack :=
  let size := rule.body.length
  let rest : Stack := stack.drop size
  (Automaton.goto? rest.state rule.head).map fun target =>
    ⟨target, .node rule ((stack.take size).reverse.map (·.tree))⟩ :: rest

/-- Reduces until the terminal can be shifted, which gives the state to enter, or the end be accepted. What
remains otherwise is the stack whose state refuses the terminal. -/
def settle (t : Terminal) : Nat → Stack → Except Stack (Nat × Stack)
  | 0, stack => .error stack
  | fuel + 1, stack =>
    match Automaton.action stack.state t with
    | .shift target => .ok (target, stack)
    | .accept => .ok (Automaton.accepting, stack)
    | .refuse => .error stack
    | .reduce rule => match reduce? stack rule with
      | some next => settle t fuel next
      | none => .error stack

/-- More reductions than can follow each other without a shift. -/
def reductions (stack : Stack) : Nat :=
  16 * (stack.length + 1)

def feed (stack : Stack) (token : Token) : Except Stack Stack :=
  (settle token.terminal (reductions stack) stack).map fun (target, rest) =>
    ⟨target, .leaf token⟩ :: rest

def finish (stack : Stack) : Except Stack Tree :=
  (settle .finish (reductions stack) stack).bind fun (_, rest) =>
    match rest with
    | frame :: _ => .ok frame.tree
    | [] => .error rest

end Stack

def deriveFrom (stack : Stack) (tokens : List Token) : Except Stack Tree :=
  match tokens with
  | [] => stack.finish
  | token :: rest => (stack.feed token).bind fun next => deriveFrom next rest

def derive (tokens : List Token) : Except Stack Tree :=
  deriveFrom [] tokens

inductive SyntaxProblem where
  | character (c : Char) (position : Text.Position)
  | token (spelling : List Char) (expected : List Terminal) (position : Text.Position)
  | literal (problem : Literal.Problem)

namespace SyntaxProblem

def position? : SyntaxProblem → Option Text.Position
  | .character _ p => some p
  | .token _ _ p => some p
  | .literal _ => none

def located (message : String) (p : Text.Position) : String :=
  message ++ s!" at line {p.line}, column {p.column}"

def message : SyntaxProblem → String
  | .character c p => located s!"Unexpected character '{c}'" p
  | .token spelling expected p =>
    let found := String.ofList spelling
    let labels := (expected.map (·.label)).mergeSort fun a b => decide (a ≤ b)
    located (s!"Unexpected token '{found}'. Expected one of: " ++
      ", ".intercalate labels) p
  | .literal problem => problem.message

end SyntaxProblem

/-- What a state wants in place of a token that it does not look for: no end, and no keyword where a name
would do. -/
def wanted (state : Nat) : List Terminal :=
  let accepted := Automaton.accepted state
  accepted.filter fun t => t != .finish && !(accepted.contains .name && t.isKeyword)

/-- The place that the end of a text borrows: that of the last token. -/
def endPosition : Option Token → Text.Position
  | some token => token.position
  | none => .start

/-- Reads tokens as the state of the stack asks for them; `fuel` bounds their number. -/
def parseFrom : Nat → Stack → Option Token → Text.Position → List Char → Except SyntaxProblem Tree
  | 0, stack, last, _, _ => .error (.token [] (Automaton.accepted stack.state) (endPosition last))
  | fuel + 1, stack, last, here, cs =>
    let p := here.advance (cs.takeWhile Lexer.isIgnored)
    match cs.dropWhile Lexer.isIgnored with
    | [] => match stack.finish with
      | .ok tree => .ok tree
      | .error stuck => .error (.token [] (Automaton.accepted stuck.state) (endPosition last))
    | c :: rest =>
      match Lexer.scan? (Automaton.accepted stack.state) (c :: rest) with
      | some (terminal, spelling) =>
        let token : Token := ⟨terminal, spelling, p⟩
        match stack.feed token with
        | .ok next =>
          parseFrom fuel next (some token) (p.advance spelling)
            ((c :: rest).drop spelling.length)
        | .error stuck => .error (.token spelling (Automaton.accepted stuck.state) p)
      | none => match Lexer.scan? Lexer.vocabulary (c :: rest) with
        | some (_, spelling) => .error (.token spelling (wanted stack.state) p)
        | none => .error (.character c p)

def deriveText (cs : List Char) : Except SyntaxProblem Tree :=
  parseFrom (cs.length + 1) [] none .start cs

def parse [CharNames] (source : String) : Except SyntaxProblem Expr :=
  match deriveText source.toList with
  | .error problem => .error problem
  | .ok tree => (ofTree tree).mapError .literal

end RoutineFlow.Expr
