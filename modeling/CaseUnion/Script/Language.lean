import CaseUnion.Pass

/-!
# The script language

A script is a list of steps over named registries, cases, values and unions.  Steps make
registries and cases, wrap and match, and run passes, queries and morphs.  Custom casts,
predicates and the bodies of clauses are written in small languages of their own.  A predicate
may run steps and a step may run passes, so the languages refer to each other.

Names stand for variables.  The four kinds of variables have separate name spaces.
-/

namespace CaseUnion.Script

/-- A payload as it is written down.  Evaluating it makes a new datum or names something that
exists. -/
inductive Literal where
  | scalar (content : Scalar)
  | list (elements : List Literal)
  /-- The value of a variable. -/
  | value (name : String)
  /-- The union of a variable. -/
  | union (name : String)
  /-- The layer of the union of a variable. -/
  | layer (name : String)

/-- A custom cast from a terminal value. -/
inductive CastRule where
  /-- The content, if it has the type. -/
  | content (type : ItemType)
  /-- A list with elements of one type only, as it is. -/
  | listOf (type : ItemType) (orEmpty : Bool)
  /-- The number that a text of one to seventeen digits writes. -/
  | parse
  /-- Nothing, of any value. -/
  | any
  /-- Nothing, of a layer. -/
  | layered
  /-- No value at all. -/
  | never
deriving DecidableEq

/-- What a matching clause does with the value of its body. -/
inductive ClauseAction where
  | accept
  | change
  | execute
deriving DecidableEq, Repr

/-- How the body of a clause returns. -/
inductive Return where
  | value
  | unit
  | skip
  | halt
deriving DecidableEq, Repr

mutual

/-- A condition on an item. -/
inductive Predicate where
  | always
  | never
  /-- The measure of the item is greater than a number. -/
  | gt (n : Int)
  /-- The measure of the item is less than a number. -/
  | lt (n : Int)
  | even
  | eq (literal : Literal)
  | not (p : Predicate)
  | and (ps : List Predicate)
  | or (ps : List Predicate)
  /-- The item is a union that satisfies a case. -/
  | satisfies (case : String)
  /-- The item is a union, and what a case sees in it passes a test. -/
  | inner (case : String) (p : Predicate)
  | fits (registry : String)
  | after (steps : List Step) (p : Predicate)

/-- A computation of an item from the item and the current union at hand. -/
inductive Expr where
  | item
  | current
  | literal (literal : Literal)
  | union (name : String)
  /-- Adds to a number, or to the age of a bird. -/
  | add (e : Expr) (n : Int)
  /-- Appends to a text, or to the name of an animal. -/
  | cat (e : Expr) (s : String)
  | size (e : Expr)
  | ite (p : Predicate) (yes no : Expr)
  /-- Wraps with a case, or gives the fallback. -/
  | wrap (case : String) (e : Option Expr) (fallback : Option Expr)
  /-- Wraps with a registry, or gives the fallback. -/
  | wrapIn (registry : String) (e fallback : Expr)
  | unwrap (case : String) (e fallback : Expr)
  | satisfies (case : String) (e : Expr)
  | pass (p : PassForm)

/-- A pass: its entry point, the union it is about, its clauses, and the default of `mapOr`. -/
inductive PassForm where
  | mk (kind : PassKind) (union : Expr) (clauses : List ClauseForm) (default : Option Literal)
    (isAsync : Bool)

/-- A clause of a pass. -/
inductive ClauseForm where
  | matching (action : ClauseAction) (case : String) (only : Option Literal) (body : Body)
  | otherwise (e : Expr)

/-- The body of a matching clause: steps to run, an expression to say, and how it returns. -/
inductive Body where
  | mk (steps : List Step) (say : Option Expr) (ret : Return) (e : Option Expr)

/-- A query about a union and one case. -/
inductive QueryForm where
  | letWhen (case : String) (e : Expr)
  | alsoWhen (case : String) (e : Expr)
  | takeIfWhen (case : String) (p : Predicate)
  | takeUnlessWhen (case : String) (p : Predicate)

/-- A step of a morph. -/
inductive MorphStep where
  | changeWhen (case : String) (e : Expr)
  | changeByMorph (case : String) (steps : List MorphStep) (e : Expr)
  | changeByMorphingCase (case : String) (steps : List MorphStep)
  | setCurrent (e : Expr)
  | query (q : QueryForm)
  | morphSelf (steps : List MorphStep)
  | pass (p : PassForm)

/-- What a case is declared to recognise. -/
inductive Declaration where
  | literal (literal : Literal)
  | ofType (type : ItemType) (guard : Option Predicate)
  | byCast (cast : CastRule) (guard : Option Predicate)
  | nested (child : String) (guard : Option Predicate)

/-- A step of a script.  Results are kept under the names that come last. -/
inductive Step where
  | registry (label : String) (flavor : Flavor) (as? : Option String)
  | cloneRegistry (registry : String) (as? : Option String)
  | register (registry name : String) (what : Declaration) (as? : Option String)
  | sealRegistry (registry : String)
  | registryInfo (registry : String)
  | caseNamed (registry name : String)
  | which (registry union : String)
  | lateRegistry (label : String)
  | lateWrap (n : Int32) (as? : Option String)
  | isWrapper (type : ItemType)
  | wrap (registry : String) (value : Literal) (orThrow : Bool) (as? : Option String)
  | canWrap (registry : String) (value : Literal)
  | caseWrap (case : String) (value : Option Literal) (orThrow : Bool) (as? : Option String)
  | rewrap (case union : String) (as? : Option String)
  | cast (case : String) (value : Literal)
  | unwrap (case union : String) (as? : Option String)
  | satisfies (case union : String)
  | caseInfo (case : String)
  | cloneCase (case : String) (as? : Option String)
  | sameInfo (first second : String)
  | value (value : Literal) (as? : Option String)
  | isType (value : Literal) (type : ItemType)
  | layer (union : String) (as? : Option String)
  | terminal (union : String) (as? : Option String)
  | layerWrap (value : Literal) (as? : Option String)
  | unionInfo (union : String)
  | sameUnion (first second : String)
  | sameValue (first second : Literal)
  | pass (p : PassForm) (as? : Option String)
  | query (union : String) (q : QueryForm)
  | morph (union : String) (steps : List MorphStep) (result : Expr) (isAsync : Bool)
  | morphSelf (union : String) (steps : List MorphStep) (as? : Option String)

end

end CaseUnion.Script
