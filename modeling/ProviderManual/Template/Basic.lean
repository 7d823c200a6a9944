namespace ProviderManual.Template

inductive Comparison where
  | equal
  | unequal
  | less
  | atMost
  | greater
  | atLeast
  deriving DecidableEq, Repr

inductive Expr where
  | absent
  | bool (b : Bool)
  | int (n : Int)
  | text (s : String)
  | name (name : String)
  | member (x : Expr) (name : String)
  | item (x key : Expr)
  | call (callee : Expr) (arguments : List Expr)
  | filter (name : String) (x : Expr) (arguments : List Expr)
  | not (x : Expr)
  | both (x y : Expr)
  | either (x y : Expr)
  | compare (comparison : Comparison) (x y : Expr)
  deriving Repr

inductive Node where
  | text (s : String)
  | output (x : Expr)
  | choice (condition : Expr) (yes no : List Node)
  | loop (name : String) (items : Expr) (body otherwise : List Node)
  | assign (name : String) (x : Expr)
  | define (name : String) (parameters : List String) (body : List Node)
  deriving Repr

inductive Value where
  | undefined
  | absent
  | bool (b : Bool)
  | int (n : Int)
  | text (s : String)
  | list (items : List Value)
  | map (members : List (String × Value))
  /-- A routine, with the number of scopes that are open where it is defined. -/
  | routine (depth : Nat) (name : String) (parameters : List String) (body : List Node)
  deriving Repr

inductive Fault where
  | memberOfUndefined (name : String)
  | noItems
  | noLength
  | unknownFilter (name : String)
  | unknownRoutine
  | arguments (routine : String)
  | tooDeep
  deriving DecidableEq, Repr

def Fault.message : Fault → String
  | .memberOfUndefined name => "undefined value has no member " ++ name
  | .noItems => "value cannot be looped over"
  | .noLength => "value has no length"
  | .unknownFilter name => "unknown filter " ++ name
  | .unknownRoutine => "unknown function"
  | .arguments routine => "wrong number of arguments for " ++ routine
  | .tooDeep => "calls are nested too deep"

end ProviderManual.Template
