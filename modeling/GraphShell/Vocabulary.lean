/-! The closed word lists of the command language: verbs, objectives and the routes that pair them.
A word belongs to a list only if it is spelled exactly so. A line that is no command has a cause
why it is none, and a hint that belongs to the deepest point that the line reached.
-/

namespace GraphShell

-----------------------------------------------------------------------------------------
-- Words
-----------------------------------------------------------------------------------------

/-- The word that ends a session. -/
def exitWord : String := "exit"

/-- The command family that the first word selects. -/
inductive Verb
  | get
  | put
  | add
  | delete
  | illuminate
deriving DecidableEq, Repr

namespace Verb

/-- The verbs in the order in which hints list them. -/
def all : List Verb := [get, put, add, delete, illuminate]

/-- The spelling of a verb. -/
def word : Verb → String
  | get => "get"
  | put => "put"
  | add => "add"
  | delete => "delete"
  | illuminate => "illuminate"

/-- The verb with a spelling. -/
def ofWord? (word : String) : Option Verb :=
  all.find? fun verb => verb.word = word

end Verb

/-- The ways in which a neighbourhood is shown. -/
inductive View
  | neighbor
  | sptCost
  | sptRelevance
  | mstCost
  | mstRelevance
deriving DecidableEq, Repr

namespace View

/-- The views in the order in which hints list them. -/
def all : List View := [neighbor, sptCost, sptRelevance, mstCost, mstRelevance]

/-- The spelling of a view. -/
def word : View → String
  | neighbor => "neighbor"
  | sptCost => "spt_cost"
  | sptRelevance => "spt_relevance"
  | mstCost => "mst_cost"
  | mstRelevance => "mst_relevance"

end View

/-- The kind of entity, or the view, that the second word selects. -/
inductive Objective
  | vertex
  | edge
  | view (view : View)
deriving DecidableEq, Repr

namespace Objective

/-- The objectives in order. -/
def all : List Objective := vertex :: edge :: View.all.map view

/-- The spelling of an objective. -/
def word : Objective → String
  | vertex => "vertex"
  | edge => "edge"
  | view v => v.word

/-- The objective with a spelling. -/
def ofWord? (word : String) : Option Objective :=
  all.find? fun objective => objective.word = word

end Objective

/-- A verb with an objective that it takes; each route has its own form of command. -/
inductive Route
  | getVertex
  | getEdge
  | putVertex
  | putEdge
  | addEdge
  | deleteVertex
  | deleteEdge
  | illuminate (view : View)
deriving DecidableEq, Repr

namespace Route

/-- The route table. -/
def all : List Route :=
  [getVertex, getEdge, putVertex, putEdge, addEdge, deleteVertex, deleteEdge]
    ++ View.all.map illuminate

/-- The verb of a route. -/
def verb : Route → Verb
  | getVertex | getEdge => .get
  | putVertex | putEdge => .put
  | addEdge => .add
  | deleteVertex | deleteEdge => .delete
  | illuminate _ => .illuminate

/-- The objective of a route. -/
def objective : Route → Objective
  | getVertex | putVertex | deleteVertex => .vertex
  | getEdge | putEdge | addEdge | deleteEdge => .edge
  | illuminate view => .view view

/-- The route of a verb and an objective, if the verb takes the objective. -/
def find? (verb : Verb) (objective : Objective) : Option Route :=
  all.find? fun route => route.verb = verb ∧ route.objective = objective

/-- The two words of a route. -/
def name (route : Route) : String :=
  route.verb.word ++ " " ++ route.objective.word

/-- The fields behind the two words, as hints show them. -/
def fields : Route → String
  | getVertex | deleteVertex => "<key: string>"
  | getEdge | deleteEdge => "<tail: string> <head: string>"
  | putVertex =>
      "<key: string> <value: int|float|bool|timestamp|string> [<ttl_seconds: int>]"
  | putEdge | addEdge =>
      "<tail: string> <head: string> <weight: float> [<ttl_seconds: int>]"
  | illuminate _ => "<seed: string> <step: int> <k: int> <tfidf: bool>"

/-- The form of a route's commands. -/
def form (route : Route) : String :=
  route.name ++ " " ++ route.fields

end Route

/-- The objectives that a verb takes, in the order of the route table. -/
def Verb.objectives (verb : Verb) : List Objective :=
  (Route.all.filter fun route => route.verb = verb).map Route.objective

/-- Every route is found under its own verb and objective. -/
theorem Route.find?_self (route : Route) : find? route.verb route.objective = some route := by
  cases route with
  | illuminate view => cases view <;> rfl
  | _ => rfl

/-- A route is found only under its own verb and objective. -/
theorem Route.eq_of_find? {verb : Verb} {objective : Objective} {route : Route}
    (h : find? verb objective = some route)
    : route.verb = verb ∧ route.objective = objective := by
  simpa using List.find?_some h

-----------------------------------------------------------------------------------------
-- Hints
-----------------------------------------------------------------------------------------

/-- How far a line got, and so which hint applies to it. -/
inductive Usage
  | verbs
  | objectives (verb : Verb)
  | command (route : Route)
deriving DecidableEq, Repr

/-- The words with bars between them. -/
def alternatives (words : List String) : String :=
  " | ".intercalate words

/-- The text of a hint. -/
def Usage.hint : Usage → String
  | verbs => "usage: \x7b " ++ alternatives (Verb.all.map Verb.word ++ [exitWord]) ++ " \x7d ..."
  | objectives verb =>
      match verb.objectives.map Objective.word with
      | [only] => "usage: " ++ verb.word ++ " " ++ only ++ " ..."
      | words => "usage: " ++ verb.word ++ " \x7b " ++ alternatives words ++ " \x7d ..."
  | command route => "usage: " ++ route.form

/-- Why the tokens of a line are no command; the first cause met is the one reported. -/
inductive ParseError
  | outOfRange
  | notAtEnd (token : String)
  | invalidInteger (token : String)
  | invalidFloat (token : String)
  | invalidBool (token : String)
  | invalidTimestamp (token : String)
  | negativeTtl (seconds : Int64)
  | unknownVerb (token : String)
  | unknownObjective (verb : Verb) (token : String)
deriving DecidableEq, Repr

/-- The decimal numeral of a 64-bit integer. -/
def integerText (n : Int64) : String :=
  if n.toInt < 0 then "-" ++ Nat.repr n.toInt.natAbs else Nat.repr n.toInt.natAbs

/-- The text of a cause. -/
def ParseError.message : ParseError → String
  | outOfRange => "unexpected end of input"
  | notAtEnd token => "unexpected trailing token `" ++ token ++ "`"
  | invalidInteger token => "expected an integer, found `" ++ token ++ "`"
  | invalidFloat token => "expected a finite float, found `" ++ token ++ "`"
  | invalidBool token => "expected `true` or `false`, found `" ++ token ++ "`"
  | invalidTimestamp token => "expected an RFC 3339 timestamp, found `" ++ token ++ "`"
  | negativeTtl seconds =>
      "time-to-live must be a non-negative number of seconds, found `"
        ++ integerText seconds ++ "`"
  | unknownVerb token => "unknown verb `" ++ token ++ "`"
  | unknownObjective verb token =>
      "`" ++ verb.word ++ "` does not take objective `" ++ token ++ "`"

/-- A cause with the hint for the point where it arose. -/
structure SyntaxError where
  usage : Usage
  cause : ParseError
deriving DecidableEq, Repr

end GraphShell
