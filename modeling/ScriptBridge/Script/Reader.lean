import ScriptBridge.Script.Syntax
import ScriptBridge.Script.Token

/-!
# Reading scripts

Script texts in a small part of the language are read by recursive descent. A text outside of it is
taken for a mistake at the first token that does not fit.
-/

namespace ScriptBridge.Script

/-- A token that does not fit. -/
structure Mistake where
  text : String
  /-- The line, counted from zero. -/
  line : Nat
  deriving DecidableEq, Repr

/-- The wording of a mistake. -/
def Mistake.message (m : Mistake) : String := "unexpected token in expression: '" ++ m.text ++ "'"

/-- Reads something at the beginning of a list of tokens. -/
abbrev Reader (α : Type) := List Lexeme → Except Mistake (α × List Lexeme)

namespace Reader

/-- The mistake of what stands where nothing fits. -/
def mistake : List Lexeme → Mistake
  | [] => ⟨"", 0⟩
  | l :: _ => ⟨l.text, l.line⟩

/-- Nothing fits here. -/
def refuse {α : Type} : Reader α := fun ls ↦ .error (mistake ls)

/-- Reads a mark. -/
def mark (sign : String) : Reader Unit
  | l :: rest => if l.token = .mark sign then .ok ((), rest) else .error (mistake (l :: rest))
  | [] => .error (mistake [])

/-- Reads a name. -/
def name : Reader String
  | [] => .error (mistake [])
  | l :: rest => match l.token with
    | .word w => .ok (w, rest)
    | _ => .error (mistake (l :: rest))

/-- The operators: how strongly they bind, and whether they associate to the right. -/
def operator? : Token → Option (Operator × Nat × Bool)
  | .mark "<" => some (.less, 1, false)
  | .mark "+" => some (.add, 2, false)
  | .mark "*" => some (.multiply, 3, false)
  | .mark "**" => some (.power, 4, true)
  | _ => none

/-- The expression of a word. -/
def ofWord : String → Expr
  | "undefined" => .undefined
  | "null" => .null
  | "true" => .boolean true
  | "false" => .boolean false
  | w => .reference w

mutual

/-- Reads an expression. -/
def expression : Nat → Reader Expr
  | 0 => refuse
  | fuel + 1 => fun ls ↦
    match ls with
    | ⟨.word w, _, _, _⟩ :: ⟨.mark "=", _, _, _⟩ :: rest => do
      let (value, rest) ← expression fuel rest
      return (.assign w value, rest)
    | ⟨.word w, _, _, _⟩ :: ⟨.mark "+=", _, _, _⟩ :: rest => do
      let (value, rest) ← expression fuel rest
      return (.assign w (.binary .add (.reference w) value), rest)
    | _ => do
      let (left, rest) ← unary fuel ls
      operators fuel 0 left rest

/-- Reads operators that bind at least as strongly as given, with their right operands. -/
def operators : Nat → Nat → Expr → Reader Expr
  | 0, _, _ => refuse
  | fuel + 1, level, left => fun ls ↦
    match ls with
    | [] => .ok (left, [])
    | l :: rest =>
      match operator? l.token with
      | none => .ok (left, ls)
      | some (operator, strength, toRight) =>
        if strength < level then .ok (left, ls)
        else do
          let (right, rest) ← unary fuel rest
          let (right, rest) ← operators fuel (if toRight then strength else strength + 1) right rest
          operators fuel level (.binary operator left right) rest

/-- Reads an operand. -/
def unary : Nat → Reader Expr
  | 0 => refuse
  | fuel + 1 => fun ls ↦
    match ls with
    | ⟨.word "typeof", _, _, _⟩ :: rest => do
      let (operand, rest) ← unary fuel rest
      match operand with
      | .reference w => return (.typeOfName w, rest)
      | _ => return (.typeOf operand, rest)
    | ⟨.word "new", _, _, _⟩ :: rest => do
      let (w, rest) ← name rest
      let ((), rest) ← mark "(" rest
      let (arguments, rest) ← argumentList fuel rest
      return (.construct (ofWord w) arguments, rest)
    | _ => do
      let (head, rest) ← primary fuel ls
      calls fuel head rest

/-- Reads an operand without calls. -/
def primary : Nat → Reader Expr
  | 0 => refuse
  | fuel + 1 => fun ls ↦
    match ls with
    | [] => .error (mistake [])
    | l :: rest => match l.token with
      | .number x => .ok (.number x, rest)
      | .bigint n => .ok (.bigint n, rest)
      | .string units => .ok (.string units, rest)
      | .word w => .ok (ofWord w, rest)
      | .mark "(" => do
        let (e, rest) ← expression fuel rest
        let ((), rest) ← mark ")" rest
        return (e, rest)
      | .mark _ => .error (mistake ls)

/-- Reads calls and accesses behind an operand. -/
def calls : Nat → Expr → Reader Expr
  | 0, _ => refuse
  | fuel + 1, head => fun ls ↦
    match ls with
    | ⟨.mark "(", _, _, _⟩ :: rest => do
      let (arguments, rest) ← argumentList fuel rest
      let callExpr := match head with
        | .property receiver key => Expr.method receiver key arguments
        | _ => .apply head arguments
      calls fuel callExpr rest
    | ⟨.mark ".", _, _, _⟩ :: rest => do
      let (key, rest) ← name rest
      calls fuel (.property head key) rest
    | _ => .ok (head, ls)

/-- Reads arguments and the parenthesis behind them. -/
def argumentList : Nat → Reader (List Expr)
  | 0 => refuse
  | fuel + 1 => fun ls ↦
    match ls with
    | ⟨.mark ")", _, _, _⟩ :: rest => .ok ([], rest)
    | _ => do
      let (e, rest) ← expression fuel ls
      match rest with
      | ⟨.mark ",", _, _, _⟩ :: rest => do
        let (es, rest) ← argumentList fuel rest
        return (e :: es, rest)
      | _ => do
        let ((), rest) ← mark ")" rest
        return ([e], rest)

end

/-- Reads the end of a statement: a semicolon, or the end of its line or block. -/
def ending (line : Nat) : Reader Unit
  | [] => .ok ((), [])
  | l :: rest =>
    if l.token = .mark ";" then .ok ((), rest)
    else if l.token = .mark "\x7d" || line < l.line then .ok ((), l :: rest)
    else .error (mistake (l :: rest))

/-- The line of the token that was read last. -/
def lastLine (before after : List Lexeme) : Nat :=
  ((before.take (before.length - after.length)).getLast?.map Lexeme.line).getD 0

mutual

/-- Reads statements up to the end, or to a closing brace. Their distances are counted from the
given line. -/
def statements : Nat → Nat → Reader Program
  | 0, _ => refuse
  | fuel + 1, start => fun ls ↦
    match ls with
    | [] => .ok ([], [])
    | ⟨.mark "\x7d", _, _, _⟩ :: _ => .ok ([], ls)
    | ⟨.mark ";", _, _, _⟩ :: rest => statements fuel start rest
    | l :: _ => do
      let (s, rest) ← statement fuel ls
      let (ss, rest) ← statements fuel start rest
      return ((l.line - start, s) :: ss, rest)

/-- Reads a statement. -/
def statement : Nat → Reader Statement
  | 0 => refuse
  | fuel + 1 => fun ls ↦
    match ls with
    | ⟨.word "var", _, _, _⟩ :: rest => do
      let (w, rest) ← name rest
      match rest with
      | ⟨.mark "=", _, _, _⟩ :: rest => do
        let (value, rest) ← expression fuel rest
        let ((), rest) ← ending (lastLine ls rest) rest
        return (.declare w (some value), rest)
      | _ => do
        let ((), rest) ← ending (lastLine ls rest) rest
        return (.declare w none, rest)
    | ⟨.word "throw", _, _, _⟩ :: rest => do
      let (value, rest) ← expression fuel rest
      let ((), rest) ← ending (lastLine ls rest) rest
      return (.throw value, rest)
    | ⟨.word "return", _, _, _⟩ :: rest => do
      let (value, rest) ← expression fuel rest
      let ((), rest) ← ending (lastLine ls rest) rest
      return (.return value, rest)
    | first@⟨.word "function", line, _, _⟩ :: rest => do
      let (w, rest) ← name rest
      let ((), rest) ← mark "(" rest
      let ((), rest) ← mark ")" rest
      let ((), rest) ← mark "\x7b" rest
      let (body, rest) ← statements fuel line rest
      let source := first.through (rest.headD first)
      let ((), rest) ← mark "\x7d" rest
      return (.declareFunction w source body, rest)
    | ⟨.mark "\x7b", _, _, _⟩ :: ⟨.mark "\x7d", _, _, _⟩ :: rest => .ok (.empty, rest)
    | ⟨.mark "\x7b", _, _, _⟩ :: rest => refuse rest
    | _ => do
      let (value, rest) ← expression fuel ls
      let ((), rest) ← ending (lastLine ls rest) rest
      return (.expression value, rest)

end

/-- Reads a whole text. The recursion goes down a bounded number of levels for each token. -/
def program (s : String) : Except Mistake Program := do
  let ls := Token.ofText s
  let (p, rest) ← statements (8 * (ls.length + 2)) 0 ls
  match rest with
  | [] => return p
  | l :: _ => .error ⟨l.text, l.line⟩

end Reader

/-- The program that a source stands for. -/
def Source.read : Source → Except Mistake Program
  | .text s => Reader.program s
  | .program p => .ok p

end ScriptBridge.Script
