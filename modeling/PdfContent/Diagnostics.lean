/-!
# What can go wrong, and how it is said

Errors are causes; each kind has one `message` function with its wording.

* `ContentError`: the content itself cannot be read on. It ends the whole run.
* `OperatorError`: one operator cannot be carried out. Apart from `fatal`, the operator is skipped and
  a `Warning` is made of the error.
* `ReadError`: a document cannot supply what was asked of it.
* `Failure`: what a caller is told in the end.
-/

namespace PdfContent

/-- What a caller is told. -/
inductive Failure
  | parse (text : String)
  | inputOutput (text : String)
  | font (text : String)
  | interpreter (text : String)
  | other (text : String)
  deriving DecidableEq, Repr

def Failure.message : Failure → String
  | .parse text => "parse error: " ++ text
  | .inputOutput text => "I/O error: " ++ text
  | .font text => "font error: " ++ text
  | .interpreter text => "interpreter error: " ++ text
  | .other text => text

/-- Why content cannot be read on. Offsets count bytes from the start of the content. -/
inductive ContentError
  | invalidOperator (keyword : String)
  | unterminatedInlineImage (offset : Nat)
  | malformed (offset : Nat) (text : String)
  deriving DecidableEq, Repr

namespace ContentError

def message : ContentError → String
  | .invalidOperator keyword => "invalid operator '" ++ keyword ++ "': keywords must not start with '/'"
  | .unterminatedInlineImage offset =>
    "inline image starting at offset " ++ toString offset ++ " has no terminating EI"
  | .malformed offset text =>
    "content stream syntax error at offset " ++ toString offset ++ ": " ++ text

def failure (e : ContentError) : Failure := .interpreter e.message

end ContentError

/-- The kinds of named resources. -/
inductive ResourceKind
  | font
  | xobject
  | colorSpace
  | extGState
  | shading
  | pattern
  | properties
  deriving DecidableEq, Repr

def ResourceKind.label : ResourceKind → String
  | .font => "font"
  | .xobject => "XObject"
  | .colorSpace => "color space"
  | .extGState => "ExtGState"
  | .shading => "shading"
  | .pattern => "pattern"
  | .properties => "property list"

/-- A stable name for the reason of a warning. -/
inductive WarningCode
  | missingOperand
  | invalidOperand
  | missingResource
  | emptyGraphicsStack
  | recursionLimit
  | unsupportedOperator
  | textState
  | encodingFallback
  | other (detail : String)
  deriving DecidableEq, Repr

def WarningCode.label : WarningCode → String
  | .missingOperand => "MISSING_OPERAND"
  | .invalidOperand => "INVALID_OPERAND"
  | .missingResource => "MISSING_RESOURCE"
  | .emptyGraphicsStack => "EMPTY_GRAPHICS_STACK"
  | .recursionLimit => "RECURSION_LIMIT"
  | .unsupportedOperator => "UNSUPPORTED_OPERATOR"
  | .textState => "TEXT_STATE"
  | .encodingFallback => "ENCODING_FALLBACK"
  | .other _ => "OTHER"

/-- Why an operator cannot be carried out. Every cause but `fatal` concerns that operator alone. -/
inductive OperatorError
  | missingOperand (operator : String) (expected found : Nat)
  | invalidOperand (operator : String) (index : Nat) (expected found : String)
  | invalidValue (operator : String) (text : String)
  | missingResource (kind : ResourceKind) (name : String)
  | emptyGraphicsStack
  | recursionLimit (limit : Nat)
  | unknownOperator (operator : String)
  | outsideTextObject (operator : String)
  | fatal (cause : ContentError)
  deriving DecidableEq, Repr

namespace OperatorError

def message : OperatorError → String
  | .missingOperand operator expected found =>
    "operator '" ++ operator ++ "' requires " ++ toString expected ++ " operand(s), found " ++
      toString found
  | .invalidOperand operator index expected found =>
    "operator '" ++ operator ++ "' operand " ++ toString index ++ ": expected " ++ expected ++
      ", found " ++ found
  | .invalidValue operator text => "operator '" ++ operator ++ "': " ++ text
  | .missingResource kind name => kind.label ++ " resource /" ++ name ++ " not found"
  | .emptyGraphicsStack => "restore with an empty graphics state stack"
  | .recursionLimit limit => "nesting depth limit of " ++ toString limit ++ " reached"
  | .unknownOperator operator => "unknown operator '" ++ operator ++ "'"
  | .outsideTextObject operator => "operator '" ++ operator ++ "' used outside of a text object"
  | .fatal cause => cause.message

def warningCode : OperatorError → WarningCode
  | .missingOperand _ _ _ => .missingOperand
  | .invalidOperand _ _ _ _ => .invalidOperand
  | .invalidValue _ _ => .invalidOperand
  | .missingResource _ _ => .missingResource
  | .emptyGraphicsStack => .emptyGraphicsStack
  | .recursionLimit _ => .recursionLimit
  | .unknownOperator _ => .unsupportedOperator
  | .outsideTextObject _ => .textState
  | .fatal cause => .other cause.message

/-- The resource that was not found. -/
def resourceName? : OperatorError → Option String
  | .missingResource _ name => some name
  | _ => none

end OperatorError

/-- Why a document cannot supply what was asked of it. -/
inductive ReadError
  | parse (text : String)
  | inputOutput (text : String)
  | font (text : String)
  | content (cause : ContentError)
  | failed (cause : Failure)
  deriving DecidableEq, Repr

namespace ReadError

def message : ReadError → String
  | .parse text => "PDF parse error: " ++ text
  | .inputOutput text => "I/O error: " ++ text
  | .font text => "font error: " ++ text
  | .content cause => cause.message
  | .failed cause => cause.message

def failure : ReadError → Failure
  | .parse text => .parse text
  | .inputOutput text => .inputOutput text
  | .font text => .font text
  | .content cause => cause.failure
  | .failed cause => cause

end ReadError

/-- Something that was passed over, and where: the operator's keyword, its place among the operators of
its stream, how many nested streams surround it, and the resource that was missing. -/
structure Warning where
  code : WarningCode
  description : String
  operator : Option String
  operatorIndex : Option Nat
  depth : Nat
  resource : Option String
  deriving DecidableEq, Repr

namespace Warning

def withCode (code : WarningCode) (description : String) : Warning :=
  ⟨code, description, none, none, 0, none⟩

/-- A warning for which there is no code; its description is also its detail. -/
def plain (description : String) : Warning := withCode (.other description) description

def atOperator (w : Warning) (operator : String) (index depth : Nat) : Warning :=
  { w with operator := some operator, operatorIndex := some index, depth }

def withResource (w : Warning) (name : String) : Warning := { w with resource := some name }

/-- The warning that an operator's error becomes. -/
def ofError (e : OperatorError) (operator : String) (index depth : Nat) : Warning :=
  { (withCode e.warningCode e.message).atOperator operator index depth with resource := e.resourceName? }

def message (w : Warning) : String :=
  let place := match w.operator with
    | none => ""
    | some operator =>
      let index := match w.operatorIndex with
        | none => ""
        | some i => " #" ++ toString i
      " [operator " ++ operator ++ index ++ "]"
  let depth := if 0 < w.depth then " (depth " ++ toString w.depth ++ ")" else ""
  let resource := match w.resource with
    | none => ""
    | some name => " [resource /" ++ name ++ "]"
  "[" ++ w.code.label ++ "] " ++ w.description ++ place ++ depth ++ resource

def failure (w : Warning) : Failure := .interpreter w.message

end Warning

/-- What a run does beyond the operators themselves. -/
structure Options where
  /-- How many streams may be open inside the first one. -/
  maxDepth : Nat
  collectWarnings : Bool
  /-- Run the cells of tiling patterns where a path is filled with one. -/
  expandPatterns : Bool
  /-- Run the glyph procedures of Type 3 fonts. -/
  runGlyphProcedures : Bool
  deriving DecidableEq, Repr

def Options.standard : Options := ⟨10, true, false, true⟩

end PdfContent
