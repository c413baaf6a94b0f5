import GraphShell.Dispatch
import GraphShell.Proofs.Command.Grammar

/-! The plan that the standard handlers make for a line, whichever handler its route has: that
of the command which the line spells, or the failure of its reading. A command's plan refuses,
or it asks the store once and prints what it makes of the reply.
-/

namespace GraphShell

/-- What a command asks of the store. Deleting, and putting an edge, ask nothing, and a view
has no part in the traversal behind it.
-/
def Command.request? : Command → Option Request
  | getVertex key => some (.getVertex key)
  | getEdge tail head => some (.getEdge tail head)
  | putVertex key value ttl => some (.putVertex key value ttl)
  | addEdge tail head weight ttl => some (.addEdge tail head weight ttl)
  | illuminate _ seed step k tfidf => some (.illuminate seed step k tfidf)
  | putEdge .. | deleteVertex _ | deleteEdge .. => none

/-- Whether a command shows what it was answered. -/
def Command.shows : Command → Bool
  | getVertex _ | getEdge .. | illuminate .. => true
  | putVertex .. | putEdge .. | addEdge .. | deleteVertex _ | deleteEdge .. => false

-----------------------------------------------------------------------------------------
-- Plans of commands
-----------------------------------------------------------------------------------------

/-- The routes that are refused are those whose commands have no request. -/
theorem Command.request?_eq_none_iff {command : Command}
    : command.request? = none
      ↔ command.route = .putEdge ∨ command.route = .deleteVertex ∨ command.route = .deleteEdge := by
  cases command <;> simp [request?, route]

theorem Command.plan_of_request?_eq_none {command : Command} (nothing : command.request? = none)
    : command.plan = .fail (.notImplemented command.route) := by
  cases command <;> first | rfl | cases nothing

/-- A command with a request makes it, and prints at once what it makes of the reply. -/
theorem Command.plan_of_request?_eq_some {command : Command} {request : Request}
    (asks : command.request? = some request)
    : ∃ shown : request.Reply → Option String,
        command.plan = .request request (fun reply => .print (shown reply))
        ∧ ∀ reply, (shown reply).isSome = command.shows := by
  cases command with
  | putEdge | deleteVertex | deleteEdge => cases asks
  | getVertex | getEdge | putVertex | addEdge | illuminate =>
      cases asks
      exact ⟨_, rfl, fun _ => rfl⟩

-----------------------------------------------------------------------------------------
-- Plans of lines
-----------------------------------------------------------------------------------------

/-- Refusing a route once its fields are read is the plan of every command of the route, if
none of them has a request.
-/
theorem Handler.unsupported_eq {route : Route}
    (refused : ∀ command : Command, command.route = route → command.request? = none)
    (cursor : Cursor)
    : unsupported route cursor
      = match (outcome (Command.read route) cursor).1 with
        | .error cause => .fail (.invalidFields ⟨.command route, cause⟩)
        | .ok command => command.plan := by
  have reads
      : ((Command.read (id route)).run cursor).1 = (outcome (Command.read route) cursor).1 := rfl
  rw [unsupported, reading, reads]
  cases result : (outcome (Command.read route) cursor).1 with
  | error cause => rfl
  | ok command =>
      obtain ⟨routed, -⟩ := Command.outcome_read_ok.mp result
      subst routed
      exact (Command.plan_of_request?_eq_none (refused command rfl)).symm

/-- Every route has a handler, and each reads the fields that its route takes and plans. -/
theorem Dispatcher.standard_handler (route : Route)
    : ∃ handler,
        standard.handler? route = some handler
        ∧ ∀ cursor,
            handler route cursor
            = match (outcome (Command.read route) cursor).1 with
              | .error cause => .fail (.invalidFields ⟨.command route, cause⟩)
              | .ok command => command.plan := by
  cases route with
  | putEdge | deleteVertex | deleteEdge =>
      refine ⟨.unsupported, rfl, Handler.unsupported_eq ?_⟩
      intro command routed
      exact Command.request?_eq_none_iff.mpr (by simp [routed])
  | getVertex | getEdge | putVertex | addEdge | illuminate => exact ⟨_, rfl, fun _ => rfl⟩

/-- The plan for the line under a cursor is decided by reading its tokens from the first on.
-/
theorem Dispatcher.plan_standard (cursor : Cursor)
    : standard.plan cursor
      = match (outcome Command.readLine (.ofTokens cursor.tokens)).1 with
        | .error cause => .fail (.ofSyntax cause)
        | .ok command => command.plan := by
  have reads
      : Route.read.run cursor.reset = outcome Route.read (.ofTokens cursor.tokens) := rfl
  rw [Command.readLine, outcome_bind, plan, reads]
  rcases outcome Route.read (.ofTokens cursor.tokens) with ⟨cause | route, middle⟩
  · rfl
  · obtain ⟨handler, registered, handles⟩ := standard_handler route
    simp only [registered, handles, outcome_under]
    cases (outcome (Command.read route) middle).1 <;> rfl

-----------------------------------------------------------------------------------------
-- Failures
-----------------------------------------------------------------------------------------

/-- The failures that a plan may come to, whatever the store answers. -/
inductive Plan.Raises (error : CommandError) : Plan → Prop
  | fail : Raises error (.fail error)
  | ask {request : Request} {next : Except StoreError request.Reply → Plan}
    (answer : Except StoreError request.Reply) (raises : Raises error (next answer))
    : Raises error (.ask request next)

/-- A run fails only as its plan may, by induction on the plan. -/
theorem Plan.raises_of_run {σ : Type} {store : Store σ} {plan : Plan} {state : σ}
    {error : CommandError} (failed : (plan.run store state).1 = .error error)
    : plan.Raises error := by
  induction plan generalizing state with
  | print output => cases failed
  | fail other =>
      cases failed
      exact .fail
  | ask request next ih => exact .ask _ (ih _ failed)

/-- A command's plan refuses it or passes on a failure of the store. -/
theorem Command.raises_plan {command : Command} {error : CommandError}
    (raises : command.plan.Raises error)
    : error = .notImplemented command.route ∨ ∃ cause, error = .connection cause := by
  cases asks : command.request? with
  | none =>
      rw [plan_of_request?_eq_none asks] at raises
      cases raises
      exact .inl rfl
  | some request =>
      obtain ⟨shown, planned, -⟩ := plan_of_request?_eq_some asks
      rw [planned, Plan.request] at raises
      cases raises with
      | ask answer raises =>
          rcases answer with cause | reply
          · cases raises
            exact .inr ⟨cause, rfl⟩
          · cases raises

/-- No plan of a line fails in making the text that it shows. -/
theorem Dispatcher.not_raises_render (cursor : Cursor) (detail : String)
    : ¬(standard.plan cursor).Raises (.render detail) := by
  rw [plan_standard]
  intro raises
  cases read : (outcome Command.readLine (.ofTokens cursor.tokens)).1 with
  | ok command =>
      rw [read] at raises
      obtain unsupported | ⟨_, passed⟩ := Command.raises_plan raises
      · cases unsupported
      · cases passed
  | error cause =>
      rw [read] at raises
      rcases cause with ⟨_ | _ | _, _⟩ <;> cases raises

-----------------------------------------------------------------------------------------
-- Execution
-----------------------------------------------------------------------------------------

theorem Plan.run_ask {σ : Type} (store : Store σ) (request : Request)
    (next : Except StoreError request.Reply → Plan) (state : σ)
    : (ask request next).run store state
      = (next (store.answer request state).1).run store (store.answer request state).2 := rfl

/-- A request is made once, and its failure ends the plan. -/
theorem Plan.run_request {σ : Type} (store : Store σ) (request : Request)
    (next : request.Reply → Plan) (state : σ)
    : (Plan.request request next).run store state
      = match store.answer request state with
        | (.error error, after) => (.error (.connection error), after)
        | (.ok reply, after) => (next reply).run store after := by
  rw [Plan.request, run_ask]
  rcases store.answer request state with ⟨_ | _, _⟩ <;> rfl

namespace Dispatcher

variable {σ ω : Type} {dispatcher : Dispatcher} {cursor : Cursor} (store : Store σ)
  (sink : Sink ω) (state : σ) (written : ω)

theorem execute_of_plan_eq_fail {error : CommandError}
    (planned : dispatcher.plan cursor = .fail error)
    : dispatcher.execute store sink cursor state written = (.error error, state, written) := by
  rw [execute, planned, Plan.run]

/-- Executing a line that is no command fails as its reading does, and does nothing. -/
theorem execute_standard_of_error {cause : SyntaxError}
    (refused : (outcome Command.readLine (.ofTokens cursor.tokens)).1 = .error cause)
    : standard.execute store sink cursor state written
      = (.error (.ofSyntax cause), state, written) :=
  execute_of_plan_eq_fail store sink state written (by rw [plan_standard, refused])

/-- Executing a command without a request does nothing. -/
theorem execute_standard_of_request?_eq_none {command : Command}
    (read : (outcome Command.readLine (.ofTokens cursor.tokens)).1 = .ok command)
    (nothing : command.request? = none)
    : standard.execute store sink cursor state written
      = (.error (.notImplemented command.route), state, written) := by
  refine execute_of_plan_eq_fail store sink state written ?_
  rw [plan_standard, read]
  exact Command.plan_of_request?_eq_none nothing

/-- Executing a command passes the failure of its request on. -/
theorem execute_standard_of_answer_error {command : Command} {request : Request}
    {cause : StoreError} {next : σ}
    (read : (outcome Command.readLine (.ofTokens cursor.tokens)).1 = .ok command)
    (asks : command.request? = some request)
    (answered : store.answer request state = (.error cause, next))
    : standard.execute store sink cursor state written
      = (.error (.connection cause), next, written) := by
  obtain ⟨shown, planned, -⟩ := Command.plan_of_request?_eq_some asks
  rw [execute, plan_standard, read]
  dsimp only
  rw [planned, Plan.run_request, answered]

/-- Executing a command whose request is accepted writes a line, or nothing: it depends on the
command alone.
-/
theorem execute_standard_of_answer_ok {command : Command} {request : Request}
    {reply : request.Reply} {next : σ}
    (read : (outcome Command.readLine (.ofTokens cursor.tokens)).1 = .ok command)
    (asks : command.request? = some request)
    (answered : store.answer request state = (.ok reply, next))
    : command.shows = false
        ∧ standard.execute store sink cursor state written = (.ok (), next, written)
      ∨ command.shows = true
        ∧ ∃ text,
            standard.execute store sink cursor state written
            = ((sink.writeLine text written).1.mapError .sink, next,
                (sink.writeLine text written).2) := by
  obtain ⟨shown, planned, shows⟩ := Command.plan_of_request?_eq_some asks
  rw [execute, plan_standard, read, ← shows reply]
  dsimp only
  rw [planned, Plan.run_request, answered]
  simp only [Plan.run]
  cases shown reply with
  | none => exact .inl ⟨rfl, rfl⟩
  | some text =>
      refine .inr ⟨rfl, text, ?_⟩
      dsimp only
      rcases sink.writeLine text written with ⟨_ | _, _⟩ <;> rfl

/-- Whatever store and sink do, no line fails in making the text that it shows. -/
theorem execute_standard_ne_render (detail : String)
    : (standard.execute store sink cursor state written).1 ≠ .error (.render detail) := by
  intro failed
  rw [execute] at failed
  rcases ran : (standard.plan cursor).run store state with ⟨error | _ | output, after⟩
  · rw [ran] at failed
    cases failed
    exact not_raises_render cursor detail (Plan.raises_of_run (by rw [ran]))
  · rw [ran] at failed
    cases failed
  · rw [ran] at failed
    dsimp only at failed
    rcases attempt : sink.writeLine output written with ⟨refused | _, _⟩
      <;> rw [attempt] at failed
      <;> cases failed

end Dispatcher

end GraphShell
