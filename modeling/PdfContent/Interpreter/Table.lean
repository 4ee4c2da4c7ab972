import PdfContent.Content.Operand
import PdfContent.Geometry

/-!
# Operator tables

A table says for each keyword how many operands the operator needs at least and what it does. An
operator is either an action of its own or a sequence of other operators of the same table, so that
replacing one of those changes the sequence, too.

What actions are is left open: a table works for any monad in which operators can fail.
-/

namespace PdfContent

namespace Call

variable {K : Type} [Scalar K]

def keyword (call : Call K) : String := call.operator.keyword

def operand (call : Call K) (index : Nat) : Except OperatorError (Operand K) :=
  match call.operands[index]? with
  | some v => .ok v
  | none => .error (.missingOperand call.keyword (index + 1) call.operands.length)

/-- The error for an operand of the wrong type. -/
def invalid (call : Call K) (index : Nat) (expected : String) (found : Operand K) : OperatorError :=
  .invalidOperand call.keyword index expected found.typeName

/-- The operand at an index, read in a certain way. -/
def read {α : Type} (call : Call K) (index : Nat) (expected : String) (view : Operand K → Option α) :
    Except OperatorError α := do
  let v ← call.operand index
  match view v with
  | some a => .ok a
  | none => .error (call.invalid index expected v)

def number (call : Call K) (index : Nat) : Except OperatorError K := call.read index "number" Operand.number?

def integer (call : Call K) (index : Nat) : Except OperatorError Int :=
  call.read index "integer" Operand.integer?

def name (call : Call K) (index : Nat) : Except OperatorError String := call.read index "name" Operand.name?

def string (call : Call K) (index : Nat) : Except OperatorError Bytes :=
  call.read index "string" Operand.bytes?

def array (call : Call K) (index : Nat) : Except OperatorError (List (Operand K)) :=
  call.read index "array" Operand.array?

def dictionary (call : Call K) (index : Nat) : Except OperatorError (Dictionary K) :=
  call.read index "dictionary" Operand.dictionary?

/-- The first `count` operands as numbers. -/
def numbers (call : Call K) (count : Nat) : Except OperatorError (List K) :=
  (List.range count).mapM call.number

/-- The first six operands as a matrix. -/
def matrix (call : Call K) : Except OperatorError (Matrix K) := do
  return ⟨← call.number 0, ← call.number 1, ← call.number 2, ← call.number 3, ← call.number 4,
    ← call.number 5⟩

end Call

/-- What an operator does. -/
inductive Handler (K : Type) (m : Type → Type)
  | action (run : Call K → m Unit)
  /-- The operator stands for other operators, each given by its keyword and operands. -/
  | sequence (steps : Call K → Except OperatorError (List (String × List (Operand K))))

structure TableEntry (K : Type) (m : Type → Type) where
  keyword : String
  minOperands : Nat
  handler : Handler K m

/-- Operators in the order of their keywords, each keyword once. -/
structure OperatorTable (K : Type) (m : Type → Type) where
  entries : List (TableEntry K m)

namespace OperatorTable

variable {K : Type} {m : Type → Type}

def empty : OperatorTable K m := ⟨[]⟩

def find? (t : OperatorTable K m) (keyword : String) : Option (TableEntry K m) :=
  t.entries.find? fun entry => entry.keyword == keyword

def insertEntry (e : TableEntry K m) : List (TableEntry K m) → List (TableEntry K m)
  | [] => [e]
  | first :: rest =>
    if e.keyword == first.keyword then e :: rest
    else if e.keyword < first.keyword then e :: first :: rest
    else first :: insertEntry e rest

/-- The table with an operator added or replaced. -/
def insert (t : OperatorTable K m) (e : TableEntry K m) : OperatorTable K m := ⟨insertEntry e t.entries⟩

def ofList (entries : List (TableEntry K m)) : OperatorTable K m := entries.foldl insert empty

/-- Adds or replaces an operator. A name is no keyword. -/
def register (t : OperatorTable K m) (e : TableEntry K m) : Except ContentError (OperatorTable K m) :=
  if e.keyword.startsWith "/" then .error (.invalidOperator e.keyword) else .ok (t.insert e)

/-- The table without an operator. -/
def erase (t : OperatorTable K m) (keyword : String) : OperatorTable K m :=
  ⟨t.entries.filter fun entry => entry.keyword != keyword⟩

def contains (t : OperatorTable K m) (keyword : String) : Bool := (t.find? keyword).isSome

def keywords (t : OperatorTable K m) : List String := t.entries.map TableEntry.keyword

variable [Monad m] [MonadExceptOf OperatorError m]

/-- Carries out a call in which operators stand for others at most `links` times one inside the other.
A longer chain goes in a circle, and a keyword that is explained by itself is unknown. -/
def dispatchWithin (t : OperatorTable K m) (links : Nat) (call : Call K) : m Unit :=
  match t.find? call.operator.keyword with
  | none => throw (OperatorError.unknownOperator call.operator.keyword)
  | some entry =>
    if call.operands.length < entry.minOperands then
      throw (OperatorError.missingOperand call.operator.keyword entry.minOperands call.operands.length)
    else
      match entry.handler with
      | .action run => run call
      | .sequence steps =>
        match links, steps call with
        | 0, _ => throw (OperatorError.unknownOperator call.operator.keyword)
        | _, .error e => throw e
        | links + 1, .ok calls =>
          calls.forM fun step => t.dispatchWithin links ⟨Operator.plain step.1, step.2⟩

/-- Carries out a call. Between two operators that only pass on some of their operands, the operators of
the built-in tables make a chain of at most three. -/
def dispatch (t : OperatorTable K m) (call : Call K) : m Unit :=
  t.dispatchWithin (3 * (call.operands.length + 1)) call

end OperatorTable

end PdfContent
