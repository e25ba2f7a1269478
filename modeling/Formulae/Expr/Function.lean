/-!
# Functions

The eighteen functions of one argument, with their names.

`Function.names` lists every accepted spelling.  `Function.name` is the spelling used in canonical
text, and it is one of the accepted ones.  Matching is exact, upper and lower case included.
-/

namespace Formulae

/-- A function of one argument. -/
inductive Function where
  | sqrt
  /-- The natural logarithm. -/
  | ln
  /-- The logarithm to base ten. -/
  | log
  | sin
  | sinh
  | asin
  | asinh
  | cos
  | cosh
  | acos
  | acosh
  | tan
  | tanh
  | atan
  | atanh
  | cot
  | coth
  | acot
  deriving DecidableEq, Repr

namespace Function

/-- All functions. -/
def all : List Function :=
  [.sqrt, .ln, .log, .sin, .sinh, .asin, .asinh, .cos, .cosh, .acos, .acosh, .tan, .tanh, .atan,
    .atanh, .cot, .coth, .acot]

/-- Every accepted spelling with its function. -/
def names : List (String × Function) :=
  [("sqrt", .sqrt), ("ln", .ln), ("log", .log), ("sin", .sin), ("sinh", .sinh),
    ("asin", .asin), ("arcsin", .asin), ("asinh", .asinh), ("arcsinh", .asinh),
    ("cos", .cos), ("cosin", .cos), ("cosh", .cosh), ("cosinh", .cosh),
    ("acos", .acos), ("acosin", .acos), ("arccos", .acos), ("arccosin", .acos),
    ("acosh", .acosh), ("arccosh", .acosh), ("tan", .tan), ("tg", .tan),
    ("tanh", .tanh), ("tgh", .tanh), ("atan", .atan), ("atg", .atan), ("arctan", .atan),
    ("arctg", .atan), ("atanh", .atanh), ("atgh", .atanh), ("arctanh", .atanh),
    ("arctgh", .atanh), ("cot", .cot), ("cotan", .cot), ("cotg", .cot),
    ("coth", .coth), ("cotanh", .coth), ("cotgh", .coth), ("acot", .acot), ("acotan", .acot),
    ("acotg", .acot), ("arccot", .acot), ("arccotan", .acot), ("arccotg", .acot)]

/-- The function with a given spelling. -/
def ofName? (name : String) : Option Function :=
  (names.find? fun entry => entry.1 == name).map Prod.snd

/-- The spellings of a function, in the order of the table. -/
def aliases (f : Function) : List String :=
  (names.filter fun entry => entry.2 == f).map Prod.fst

/-- The name of a function in canonical text. -/
def name : Function → String
  | .sqrt => "sqrt"
  | .ln => "ln"
  | .log => "log"
  | .sin => "sin"
  | .sinh => "sinh"
  | .asin => "asin"
  | .asinh => "asinh"
  | .cos => "cos"
  | .cosh => "cosh"
  | .acos => "acos"
  | .acosh => "acosh"
  | .tan => "tan"
  | .tanh => "tanh"
  | .atan => "atan"
  | .atanh => "atanh"
  | .cot => "cot"
  | .coth => "coth"
  | .acot => "acot"

/-- The name of a function in outlines. -/
def rule : Function → String
  | .sqrt => "SQRT"
  | .ln => "LN"
  | .log => "LOG"
  | .sin => "SIN"
  | .sinh => "SINH"
  | .asin => "ARCSIN"
  | .asinh => "ARCSINH"
  | .cos => "COS"
  | .cosh => "COSH"
  | .acos => "ARCCOS"
  | .acosh => "ARCCOSH"
  | .tan => "TAN"
  | .tanh => "TANH"
  | .atan => "ARCTAN"
  | .atanh => "ARCTANH"
  | .cot => "COTAN"
  | .coth => "COTANH"
  | .acot => "ARCCOTAN"

/-- The TeX command of a function. -/
def tex : Function → String
  | .sqrt => "\\sqrt"
  | .ln => "\\ln"
  | .log => "\\log"
  | .sin => "\\sin"
  | .sinh => "\\sinh"
  | .asin => "\\arcsin"
  | .asinh => "\\text\x7barsinh\x7d"
  | .cos => "\\cos"
  | .cosh => "\\cosh"
  | .acos => "\\arccos"
  | .acosh => "\\text\x7barcosh\x7d"
  | .tan => "\\tan"
  | .tanh => "\\tanh"
  | .atan => "\\arctan"
  | .atanh => "\\text\x7bartanh\x7d"
  | .cot => "\\cot"
  | .coth => "\\coth"
  | .acot => "\\text\x7barccot\x7d"

/-- The place of a function in `all`, counted from zero. -/
def index (f : Function) : Nat := all.idxOf f

theorem ofName?_name (f : Function) : ofName? f.name = some f := by
  cases f <;> decide

end Function

end Formulae
