import GraphShell.Graph.Trees
import GraphShell.Store.Basic

/-! From the tokens of a line to its effect: the handler of the line's route makes a plan,
and the plan asks the store and prints. A line writes to its sink at most once.
-/

namespace GraphShell

/-- Why a line had no effect, or its effect could not be shown. The text of what is shown may fail
to come about, which none of the standard handlers lets happen, or be refused by the sink.
-/
inductive CommandError
  | invalidVerb (cause : SyntaxError)
  | invalidObjective (cause : SyntaxError)
  | invalidFields (cause : SyntaxError)
  | notImplemented (route : Route)
  | connection (cause : StoreError)
  | render (detail : String)
  | sink (detail : String)
deriving DecidableEq, Repr

namespace CommandError

/-- The kinds of failure that callers tell apart. -/
inductive Kind
  | invalidVerb
  | invalidObjective
  | syntaxError
  | notImplemented
  | connection
  | unexpected
deriving DecidableEq, Repr

/-- The kind of a failure. -/
def kind : CommandError → Kind
  | invalidVerb _ => .invalidVerb
  | invalidObjective _ => .invalidObjective
  | invalidFields _ => .syntaxError
  | notImplemented _ => .notImplemented
  | connection _ => .connection
  | render _ | sink _ => .unexpected

/-- The text of a failure. A cause behind it does not show, its hint does. -/
def message : CommandError → String
  | invalidVerb cause => "invalid verb; " ++ cause.usage.hint
  | invalidObjective cause => "invalid objective; " ++ cause.usage.hint
  | invalidFields cause => cause.usage.hint
  | notImplemented route => "not implemented: " ++ route.name
  | connection _ => "connection error"
  | render detail | sink detail => detail

/-- The text of the cause behind a failure. -/
def cause? : CommandError → Option String
  | invalidVerb cause | invalidObjective cause | invalidFields cause => some cause.cause.message
  | connection cause => some cause.message
  | notImplemented _ | render _ | sink _ => none

/-- The failure of a line that is no command: its kind is the depth of the hint. -/
def ofSyntax (cause : SyntaxError) : CommandError :=
  match cause.usage with
  | .verbs => invalidVerb cause
  | .objectives _ => invalidObjective cause
  | .command _ => invalidFields cause

end CommandError

/-- What a handler does with a line: it prints a line or nothing, fails, or asks the store
and goes on with the answer.
-/
inductive Plan
  | print (output : Option String)
  | fail (error : CommandError)
  | ask (request : Request) (next : Except StoreError request.Reply → Plan)

namespace Plan

/-- Asks the store, fails if the store does, and goes on with an accepted request's reply. -/
def request (request : Request) (next : request.Reply → Plan) : Plan :=
  .ask request fun
    | .error error => .fail (.connection error)
    | .ok reply => next reply

/-- Follows a plan against a store. -/
def run {σ : Type} (store : Store σ) : Plan → σ → Except CommandError (Option String) × σ
  | print output, state => (.ok output, state)
  | fail error, state => (.error error, state)
  | ask request next, state =>
      let (answer, state) := store.answer request state
      run store (next answer) state

end Plan

/-- The plan of a command. Deleting, and putting an edge, ask nothing of the store. -/
def Command.plan : Command → Plan
  | getVertex key => .request (.getVertex key) fun vertex => .print vertex.value.json
  | getEdge tail head =>
      .request (.getEdge tail head) fun weight => .print (Decimal.displayRounded 6 weight)
  | putVertex key value ttl => .request (.putVertex key value ttl) fun _ => .print none
  | addEdge tail head weight ttl => .request (.addEdge tail head weight ttl) fun _ => .print none
  | illuminate view seed step k tfidf =>
      .request (.illuminate seed step k tfidf) fun graph =>
        .print ((graph.derive view seed).json (.spread 0))
  | putEdge .. => .fail (.notImplemented .putEdge)
  | deleteVertex _ => .fail (.notImplemented .deleteVertex)
  | deleteEdge .. => .fail (.notImplemented .deleteEdge)

/-- What is done for the lines of a route: a plan, made from the route and the cursor behind
its two words.
-/
abbrev Handler := Route → Cursor → Plan

namespace Handler

/-- Reads the fields of a form, whatever the route it is registered for, and plans. -/
def reading (form : Route → Route) (plan : Route → Command → Plan) : Handler :=
  fun route cursor =>
    match ((Command.read (form route)).run cursor).1 with
    | .error cause => .fail (.invalidFields ⟨.command route, cause⟩)
    | .ok command => plan route command

/-- Handles the commands of one form. -/
def ofForm (form : Route) : Handler :=
  reading (fun _ => form) fun _ => Command.plan

/-- Reads the fields of its route, and refuses. -/
def unsupported : Handler :=
  reading id fun route _ => .fail (.notImplemented route)

end Handler

/-- The handlers by route. -/
structure Dispatcher where
  handler? : Route → Option Handler

namespace Dispatcher

/-- No handler for any route. -/
def empty : Dispatcher :=
  ⟨fun _ => none⟩

/-- Each route with its handler: deleting, and putting an edge, are refused once their fields
are read, and every other route has the handler of its own form.
-/
def standard : Dispatcher :=
  ⟨fun route => some <| match route with
    | .putEdge | .deleteVertex | .deleteEdge => .unsupported
    | _ => .ofForm route⟩

/-- The same handlers but for one route, which gets the given one. -/
def register (dispatcher : Dispatcher) (route : Route) (handler : Handler) : Dispatcher :=
  ⟨fun other => if other = route then some handler else dispatcher.handler? other⟩

/-- The routes with a handler, in table order. -/
def routes (dispatcher : Dispatcher) : List Route :=
  Route.all.filter fun route => (dispatcher.handler? route).isSome

/-- The plan for the line under a cursor, read from its first token on. A route without a
handler is an objective that its verb does not take.
-/
def plan (dispatcher : Dispatcher) (cursor : Cursor) : Plan :=
  match Route.read.run cursor.reset with
  | (.error cause, _) => .fail (.ofSyntax cause)
  | (.ok route, cursor) =>
      match dispatcher.handler? route with
      | some handler => handler route cursor
      | none =>
          .fail (.invalidObjective
            ⟨.objectives route.verb, .unknownObjective route.verb route.objective.word⟩)

end Dispatcher

/-- Where output lines go: a machine that takes a line, or fails to. -/
structure Sink (ω : Type) where
  writeLine (line : String) (state : ω) : Except String Unit × ω

namespace Sink

/-- The sink that appends each line to a text. -/
def text : Sink String where
  writeLine line written := (.ok (), written ++ line ++ "\n")

/-- The sink that takes no line and says why. -/
def closed (detail : String) : Sink String where
  writeLine _ written := (.error detail, written)

end Sink

/-- Follows the plan for the line under a cursor and writes what it prints. -/
def Dispatcher.execute {σ ω : Type} (dispatcher : Dispatcher) (store : Store σ)
    (sink : Sink ω) (cursor : Cursor) (state : σ) (written : ω)
    : Except CommandError Unit × σ × ω :=
  match (dispatcher.plan cursor).run store state with
  | (.error error, state) => (.error error, state, written)
  | (.ok none, state) => (.ok (), state, written)
  | (.ok (some output), state) =>
      match sink.writeLine output written with
      | (.ok (), written) => (.ok (), state, written)
      | (.error detail, written) => (.error (.sink detail), state, written)

/-- Follows the plan for a line and writes what it prints. -/
def Dispatcher.executeLine {σ ω : Type} (dispatcher : Dispatcher) (store : Store σ)
    (sink : Sink ω) (line : String) (state : σ) (written : ω)
    : Except CommandError Unit × σ × ω :=
  dispatcher.execute store sink (.ofLine line) state written

end GraphShell
