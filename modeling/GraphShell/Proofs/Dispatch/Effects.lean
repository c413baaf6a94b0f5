import GraphShell.Proofs.Dispatch.Plans

/-! What a line does to the store and to the sink, told by the requests made and the lines
attempted. Recording them changes nothing else, so that the records are those of the plain run.
-/

namespace GraphShell

/-- The sink that takes and refuses the same lines and also keeps them, the latest first. -/
def Sink.recorded {ω : Type} (sink : Sink ω) : Sink (ω × List String) where
  writeLine line written :=
    let (result, after) := sink.writeLine line written.1
    (result, after, line :: written.2)

variable {σ ω : Type} (store : Store σ) (sink : Sink ω)

-----------------------------------------------------------------------------------------
-- Recording
-----------------------------------------------------------------------------------------

theorem Store.recorded_answer (request : Request) (state : σ) (asked : List Request)
    : store.recorded.answer request (state, asked)
      = ((store.answer request state).1, (store.answer request state).2, request :: asked) := rfl

theorem Sink.recorded_writeLine (line : String) (written : ω) (attempted : List String)
    : sink.recorded.writeLine line (written, attempted)
      = ((sink.writeLine line written).1, (sink.writeLine line written).2, line :: attempted) :=
  rfl

/-- Following a plan against a recorded store gives the same result and state, by induction on
the plan.
-/
theorem Plan.run_recorded (plan : Plan) (state : σ) (asked : List Request)
    : plan.run store state
      = ((plan.run store.recorded (state, asked)).1,
          (plan.run store.recorded (state, asked)).2.1) := by
  induction plan generalizing state asked with
  | print output => rfl
  | fail error => rfl
  | ask request next ih =>
      exact ih (store.answer request state).1 (store.answer request state).2 (request :: asked)

theorem Dispatcher.execute_recorded (dispatcher : Dispatcher) (cursor : Cursor) (state : σ)
    (asked : List Request) (written : ω) (attempted : List String)
    : dispatcher.execute store sink cursor state written
      = ((dispatcher.execute store.recorded sink.recorded cursor (state, asked)
            (written, attempted)).1,
          (dispatcher.execute store.recorded sink.recorded cursor (state, asked)
            (written, attempted)).2.1.1,
          (dispatcher.execute store.recorded sink.recorded cursor (state, asked)
            (written, attempted)).2.2.1) := by
  unfold execute
  rw [Plan.run_recorded store (dispatcher.plan cursor) state asked]
  rcases (dispatcher.plan cursor).run store.recorded (state, asked)
    with ⟨error | _ | output, after, asked⟩
  · rfl
  · rfl
  · simp only [Sink.recorded_writeLine]
    rcases sink.writeLine output written with ⟨_ | _, _⟩ <;> rfl

-----------------------------------------------------------------------------------------
-- Effects
-----------------------------------------------------------------------------------------

/-- How a line came out: its result, what became of store and sink, the requests that were made
and the lines that were attempted.
-/
structure Run (σ ω : Type) where
  result : Except CommandError Unit
  state : σ
  requests : List Request
  written : ω
  lines : List String

/-- The effect of a line, from what it is read as. An accepted request is a success but for the
one line that a showing command attempts.
-/
inductive Effect (state : σ) (written : ω) : Except SyntaxError Command → Run σ ω → Prop
  | unread {cause}
    : Effect state written (.error cause) ⟨.error (.ofSyntax cause), state, [], written, []⟩
  | unsupported {command} (nothing : command.request? = none)
    : Effect state written (.ok command)
        ⟨.error (.notImplemented command.route), state, [], written, []⟩
  | failed {command request cause next} (asks : command.request? = some request)
    (answered : store.answer request state = (.error cause, next))
    : Effect state written (.ok command)
        ⟨.error (.connection cause), next, [request], written, []⟩
  | silent {command request reply next} (asks : command.request? = some request)
    (answered : store.answer request state = (.ok reply, next))
    (silent : command.shows = false)
    : Effect state written (.ok command) ⟨.ok (), next, [request], written, []⟩
  | shown {command request reply next} (text : String) (asks : command.request? = some request)
    (answered : store.answer request state = (.ok reply, next)) (shows : command.shows = true)
    : Effect state written (.ok command)
        ⟨(sink.writeLine text written).1.mapError .sink, next, [request],
          (sink.writeLine text written).2, [text]⟩

variable {store sink}

/-- Only a line that the sink refused is an unexpected failure. -/
theorem Effect.unexpected {state : σ} {written : ω} {read : Except SyntaxError Command}
    {run : Run σ ω} {error : CommandError} (effect : Effect store sink state written read run)
    (failed : run.result = .error error) (kind : error.kind = .unexpected)
    : ∃ text detail,
        run.lines = [text]
        ∧ (sink.writeLine text written).1 = .error detail
        ∧ error = .sink detail := by
  cases effect with
  | @unread cause =>
      cases failed
      rcases cause with ⟨_ | _ | _, _⟩ <;> cases kind
  | unsupported | failed =>
      cases failed
      cases kind
  | silent => cases failed
  | shown text =>
      obtain ⟨detail, refused, rfl⟩ := mapError_eq_error_iff.mp failed
      exact ⟨text, detail, rfl, refused, rfl⟩

variable (store sink)

/-- The line under a cursor has its effect, and the records show no request and no line more.
-/
theorem Dispatcher.effect_of_execute (cursor : Cursor) (state : σ) (asked : List Request)
    (written : ω) (attempted : List String)
    : ∃ run,
        Effect store sink state written
          (outcome Command.readLine (.ofTokens cursor.tokens)).1 run
        ∧ standard.execute store sink cursor state written
          = (run.result, run.state, run.written)
        ∧ standard.execute store.recorded sink.recorded cursor (state, asked)
            (written, attempted)
          = (run.result, (run.state, run.requests ++ asked),
              (run.written, run.lines ++ attempted)) := by
  -- the recorded run determines the plain one
  suffices recorded : ∃ run,
      Effect store sink state written
        (outcome Command.readLine (.ofTokens cursor.tokens)).1 run
      ∧ standard.execute store.recorded sink.recorded cursor (state, asked) (written, attempted)
        = (run.result, (run.state, run.requests ++ asked),
            (run.written, run.lines ++ attempted)) by
    obtain ⟨run, effect, does⟩ := recorded
    have plain := standard.execute_recorded store sink cursor state asked written attempted
    exact ⟨run, effect, by rw [plain, does], does⟩
  cases read : (outcome Command.readLine (.ofTokens cursor.tokens)).1 with
  | error cause => exact ⟨_, .unread, execute_standard_of_error _ _ _ _ read⟩
  | ok command =>
      cases asks : command.request? with
      | none =>
          exact ⟨_, .unsupported asks, execute_standard_of_request?_eq_none _ _ _ _ read asks⟩
      | some request =>
          have recorded := store.recorded_answer request state asked
          rcases answered : store.answer request state with ⟨cause | reply, next⟩
          · rw [answered] at recorded
            exact ⟨_, .failed asks answered,
              execute_standard_of_answer_error _ _ _ _ read asks recorded⟩
          · rw [answered] at recorded
            obtain ⟨silent, does⟩ | ⟨shows, text, does⟩ :=
              execute_standard_of_answer_ok _ sink.recorded _ (written, attempted) read asks
                recorded
            · exact ⟨_, .silent asks answered silent, does⟩
            · exact ⟨_, .shown text asks answered shows, does⟩

/-- A line that is no command, or whose command has no request, does nothing. Any other line
makes the one request of its command: a failure is passed on with nothing written, and a reply
is shown in one line or not at all. An unexpected failure is one of the sink.
-/
theorem effect_of_line (line : String) (state : σ) (asked : List Request) (written : ω)
    (attempted : List String)
    : ∃ run,
        Effect store sink state written (Command.ofLine line) run
        ∧ Dispatcher.standard.executeLine store sink line state written
          = (run.result, run.state, run.written)
        ∧ Dispatcher.standard.executeLine store.recorded sink.recorded line (state, asked)
            (written, attempted)
          = (run.result, (run.state, run.requests ++ asked),
              (run.written, run.lines ++ attempted))
        ∧ ∀ error,
            run.result = .error error
            → error.kind = .unexpected
            → ∃ text detail,
                run.lines = [text]
                ∧ (sink.writeLine text written).1 = .error detail
                ∧ error = .sink detail := by
  obtain ⟨run, effect, plain, recorded⟩ :=
    Dispatcher.effect_of_execute store sink (.ofLine line) state asked written attempted
  exact ⟨run, effect, plain, recorded, fun _ => effect.unexpected⟩

end GraphShell
