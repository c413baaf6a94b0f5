import GraphShell.Proofs.Shell.Lines
import GraphShell.Proofs.Store.Answers

/-! A session over a new volatile store is two maps, of values by key and of weights by edge,
told from the lines that were run: the last line that stored under a place decides what the
place holds, and lines that store nothing have no part in it.
-/

namespace GraphShell

-----------------------------------------------------------------------------------------
-- Places
-----------------------------------------------------------------------------------------

/-- Where something can be stored: under a key, or on an edge. -/
inductive Place
  | vertex (key : String)
  | edge (tail head : String)

namespace Place

/-- What a place can hold. -/
abbrev Content : Place → Type
  | vertex _ => Scalar
  | edge .. => Weight

/-- The command that stores something at a place. -/
def store : (place : Place) → place.Content → Duration → Command
  | vertex key, value, ttl => .putVertex key value ttl
  | edge tail head, weight, ttl => .addEdge tail head weight ttl

theorem store_inj {place : Place} {content other : place.Content} {ttl span : Duration}
    (same : place.store content ttl = place.store other span)
    : content = other ∧ ttl = span := by
  cases place with
  | vertex key =>
      obtain ⟨-, rfl, rfl⟩ := Command.putVertex.inj same
      exact ⟨rfl, rfl⟩
  | edge tail head =>
      obtain ⟨-, -, rfl, rfl⟩ := Command.addEdge.inj same
      exact ⟨rfl, rfl⟩

end Place

/-- What a store shows at a place. -/
def Memory.content? (now : Instant) (memory : Memory) : (place : Place) → Option place.Content
  | .vertex key => memory.vertex? now key
  | .edge tail head => memory.edge? now tail head

namespace Shell

-----------------------------------------------------------------------------------------
-- Sessions
-----------------------------------------------------------------------------------------

/-- A line with the clock reading at which it is run. -/
structure TimedLine where
  now : Instant
  line : String

/-- The lines of a session, the earliest first. -/
abbrev Lines := List TimedLine

/-- A new store and an empty console, after lines have been run one after the other. -/
def after (lines : Lines) : Memory × Console :=
  lines.foldl
    (fun reached timed =>
      ((standard (Memory.store timed.now)).runLine timed.line reached.1 reached.2).2)
    (.empty, .empty)

/-- The line ends so if it is run behind the lines, and prints this. -/
def Answers (lines : Lines) (timed : TimedLine) (outcome : Outcome) (printed : String) : Prop :=
  let reached := after lines
  let result := (standard (Memory.store timed.now)).runLine timed.line reached.1 reached.2
  result.1 = outcome ∧ result.2.2.out = reached.2.out ++ printed

/-- Whatever the line asks for, it stores nothing. -/
def Idle (line : String) : Prop :=
  ∀ (place : Place) content ttl, ¬ Asks line (place.store content ttl)

/-- The last of the lines to store anything at the place stored this, and not just for an
instant.
-/
def Stored (lines : Lines) (place : Place) (content : place.Content) : Prop :=
  ∃ before timed behind ttl,
    lines = before ++ timed :: behind
    ∧ Asks timed.line (place.store content ttl)
    ∧ ttl ≠ ⟨0⟩
    ∧ ∀ later ∈ behind, ∀ other span, ¬ Asks later.line (place.store other span)

/-- The clock goes forward up to a reading, and whatever the lines stored for longer than an
instant lives until then.
-/
structure Lasting (lines : Lines) (now : Instant) : Prop where
  forward : Forward (lines.map TimedLine.now ++ [now])
  within : now.nanoseconds < Instant.limit
  lives : ∀ timed ∈ lines, ∀ (place : Place) content ttl,
    Asks timed.line (place.store content ttl)
    → ttl ≠ ⟨0⟩
    → now.nanoseconds < timed.now.nanoseconds + ttl.nanoseconds

/-- How a line ends and what it prints where values and weights are these. A weight shows with six
places, which `Decimal.displayRounded_of_isFinite` spells out.
-/
inductive Ends (valued : String → Scalar → Prop) (weighed : String → String → Weight → Prop)
    (line : String)
    : Outcome → String → Prop
  | value {key value} (asks : Asks line (.getVertex key)) (found : valued key value)
    : Ends valued weighed line .done (value.json ++ "\n")
  | valueless {key} (asks : Asks line (.getVertex key)) (missing : ∀ value, ¬ valued key value)
    : Ends valued weighed line (.failed .connection) ""
  | weight {tail head weight} (asks : Asks line (.getEdge tail head))
    (found : weighed tail head weight)
    : Ends valued weighed line .done (Decimal.displayRounded 6 weight ++ "\n")
  | weightless {tail head} (asks : Asks line (.getEdge tail head))
    (missing : ∀ weight, ¬ weighed tail head weight)
    : Ends valued weighed line (.failed .connection) ""
  | view {view seed step k tfidf} {graph found : Graph}
    (asks : Asks line (.illuminate view seed step k tfidf))
    (made : graph.MadeOf valued weighed)
    (lit : graph.illuminate? seed step.toInt k.toInt tfidf = some found)
    : Ends valued weighed line .done ((found.derive view seed).json (.spread 0) ++ "\n")
  | viewless {view seed step k tfidf} {graph : Graph}
    (asks : Asks line (.illuminate view seed step k tfidf))
    (made : graph.MadeOf valued weighed)
    (dark : graph.illuminate? seed step.toInt k.toInt tfidf = none)
    : Ends valued weighed line (.failed .connection) ""
  | stored (place : Place) {content ttl} (asks : Asks line (place.store content ttl))
    : Ends valued weighed line .done ""
  | refused {command} (asks : Asks line command) (nothing : command.request? = none)
    : Ends valued weighed line (.failed .notImplemented) ""
  | left (leaves : Leaves line) : Ends valued weighed line .exit ""
  | rejected {usage} (unread : ∀ command, ¬ Asks line command) (stays : ¬ Leaves line)
    (reaches : Reaches line usage)
    : Ends valued weighed line (.rejected usage) ""

-----------------------------------------------------------------------------------------
-- One line
-----------------------------------------------------------------------------------------

variable {now later : Instant} {line : String} {memory next : Memory} {outcome : Outcome}
  {printed : String}

/-- A line that stores goes to the store with its entry. -/
theorem yields_of_stores (now : Instant) (place : Place) {content : place.Content}
    {ttl : Duration} (asks : Asks line (place.store content ttl)) (memory : Memory)
    : ∃ next,
        Yields (standard (Memory.store now)) line memory .done next ""
        ∧ ∀ later : Instant,
            now.nanoseconds ≤ later.nanoseconds
            → next.content? later place = Write.value? later (some ⟨content, ttl, now⟩)
              ∧ ∀ other,
                  other ≠ place → next.content? later other = memory.content? later other := by
  cases place with
  | vertex key =>
      refine ⟨memory.putVertex now key content ttl, yields_of_silence asks rfl, ?_⟩
      intro later order
      refine ⟨by simp [Memory.content?, memory.vertex?_putVertex order], ?_⟩
      intro other apart
      cases other with
      | vertex other =>
          have different : key ≠ other := fun same => apart (same ▸ rfl)
          simp [Memory.content?, memory.vertex?_putVertex order, different]
      | edge tail head => exact memory.edge?_putVertex order key content ttl tail head
  | edge tail head =>
      refine ⟨memory.addEdge now tail head content ttl, yields_of_silence asks rfl, ?_⟩
      intro later order
      refine ⟨by simp [Memory.content?, memory.edge?_addEdge order], ?_⟩
      intro other apart
      cases other with
      | vertex key => exact memory.vertex?_addEdge order tail head content ttl key
      | edge otherTail otherHead =>
          have different : ¬ (tail = otherTail ∧ head = otherHead) := by
            rintro ⟨rfl, rfl⟩
            exact apart rfl
          simp [Memory.content?, memory.edge?_addEdge order, different]

/-- The line ends as the live values and weights ask for, and leaves the store as it was if it
stores nothing.
-/
def Settles (now : Instant) (memory : Memory) (line : String) : Prop :=
  ∃ outcome next printed,
    Yields (standard (Memory.store now)) line memory outcome next printed
    ∧ Ends (fun key value => memory.vertex? now key = some value)
        (fun tail head weight => memory.edge? now tail head = some weight) line outcome printed
    ∧ (Idle line → next = memory)

theorem settles_getVertex {key : String} (now : Instant) (memory : Memory)
    (asks : Asks line (.getVertex key))
    : Settles now memory line := by
  cases shown : memory.vertex? now key with
  | none =>
      have answered : (Memory.store now).answer (.getVertex key) memory
          = (.error (.notFound key), memory) := by
        simp [Memory.store, shown]
      have missing : ∀ value, ¬ memory.vertex? now key = some value := by simp [shown]
      exact ⟨_, _, _, yields_of_answer_error asks rfl answered, .valueless asks missing,
        fun _ => rfl⟩
  | some value =>
      have answered : (Memory.store now).answer (.getVertex key) memory
          = (.ok ⟨key, value⟩, memory) := by
        simp [Memory.store, shown]
      exact ⟨_, _, _, yields_of_answer_ok asks rfl answered, .value asks shown, fun _ => rfl⟩

theorem settles_getEdge {tail head : String} (now : Instant) (memory : Memory)
    (asks : Asks line (.getEdge tail head))
    : Settles now memory line := by
  cases shown : memory.edge? now tail head with
  | none =>
      have answered : (Memory.store now).answer (.getEdge tail head) memory
          = (.error (.notFound (edgeName tail head)), memory) := by
        simp [Memory.store, shown]
      have missing : ∀ weight, ¬ memory.edge? now tail head = some weight := by simp [shown]
      exact ⟨_, _, _, yields_of_answer_error asks rfl answered, .weightless asks missing,
        fun _ => rfl⟩
  | some weight =>
      have answered : (Memory.store now).answer (.getEdge tail head) memory
          = (.ok weight, memory) := by
        simp [Memory.store, shown]
      exact ⟨_, _, _, yields_of_answer_ok asks rfl answered, .weight asks shown, fun _ => rfl⟩

/-- A line that asks for a neighbourhood that is there prints the view of it. -/
theorem yields_of_illuminate {view : View} {seed : String} {step k : Int64} {tfidf : Bool}
    {found : Graph} (asks : Asks line (.illuminate view seed step k tfidf))
    (lit : (memory.liveGraph now).illuminate? seed step.toInt k.toInt tfidf = some found)
    : Yields (standard (Memory.store now)) line memory .done memory
        ((found.derive view seed).json (.spread 0) ++ "\n") := by
  have answered : (Memory.store now).answer (.illuminate seed step k tfidf) memory
      = (.ok found, memory) := by
    simp [Memory.store, lit]
  exact yields_of_answer_ok asks rfl answered

theorem settles_illuminate {view : View} {seed : String} {step k : Int64} {tfidf : Bool}
    (now : Instant) (memory : Memory) (asks : Asks line (.illuminate view seed step k tfidf))
    : Settles now memory line := by
  have made := memory.madeOf_liveGraph now
  cases lit : (memory.liveGraph now).illuminate? seed step.toInt k.toInt tfidf with
  | none =>
      have answered : (Memory.store now).answer (.illuminate seed step k tfidf) memory
          = (.error (.notFound seed), memory) := by
        simp [Memory.store, lit]
      exact ⟨_, _, _, yields_of_answer_error asks rfl answered, .viewless asks made lit,
        fun _ => rfl⟩
  | some found =>
      exact ⟨_, _, _, yields_of_illuminate asks lit, .view asks made lit, fun _ => rfl⟩

theorem settles_store (now : Instant) (memory : Memory) (place : Place)
    {content : place.Content} {ttl : Duration} (asks : Asks line (place.store content ttl))
    : Settles now memory line := by
  obtain ⟨next, yields, -⟩ := yields_of_stores now place asks memory
  refine ⟨_, _, _, yields, .stored place asks, fun idle => ?_⟩
  exact absurd asks (idle place content ttl)

/-- Every line does so, whether or not it asks for anything. -/
theorem settles (now : Instant) (memory : Memory) (line : String) : Settles now memory line := by
  by_cases leaves : Leaves line
  · exact ⟨_, _, _, yields_of_leaves leaves, .left leaves, fun _ => rfl⟩
  by_cases asked : ∃ command, Asks line command
  · obtain ⟨command, asks⟩ := asked
    cases command with
    | getVertex key => exact settles_getVertex now memory asks
    | getEdge tail head => exact settles_getEdge now memory asks
    | illuminate view seed step k tfidf => exact settles_illuminate now memory asks
    | putVertex key value ttl => exact settles_store now memory (.vertex key) asks
    | addEdge tail head weight ttl => exact settles_store now memory (.edge tail head) asks
    | putEdge | deleteVertex | deleteEdge =>
        exact ⟨_, _, _, yields_of_error asks rfl, .refused asks rfl, fun _ => rfl⟩
  · have unread : ∀ command, ¬ Asks line command := not_exists.mp asked
    obtain ⟨usage, reaches, yields⟩ := yields_of_unread unread leaves
    exact ⟨_, _, _, yields, .rejected unread leaves reaches, fun _ => rfl⟩

-----------------------------------------------------------------------------------------
-- Runs of lines
-----------------------------------------------------------------------------------------

variable {lines before behind : Lines} {timed idle : TimedLine}

theorem after_append_singleton (lines : Lines) (timed : TimedLine)
    : after (lines ++ [timed])
      = ((standard (Memory.store timed.now)).runLine timed.line (after lines).1
          (after lines).2).2 := by
  rw [after, List.foldl_append]
  rfl

/-- The store behind a line does not depend on the console. -/
theorem after_of_yields
    (yields : Yields (standard (Memory.store timed.now)) timed.line (after lines).1 outcome next
      printed)
    : (after (lines ++ [timed])).1 = next := by
  rw [after_append_singleton]
  exact yields.goes (after lines).2

theorem answers_of_yields
    (yields : Yields (standard (Memory.store timed.now)) timed.line (after lines).1 outcome next
      printed)
    : Answers lines timed outcome printed := by
  unfold Answers
  exact ⟨yields.ends (after lines).2, yields.prints (after lines).2⟩

theorem after_idle (nothing : Idle timed.line)
    : (after (lines ++ [timed])).1 = (after lines).1 := by
  obtain ⟨outcome, next, printed, yields, -, same⟩ :=
    settles timed.now (after lines).1 timed.line
  rw [after_of_yields yields, same nothing]

/-- The store is the same without a line that stores nothing, by induction on the lines behind
it from the last one back.
-/
theorem after_without (nothing : Idle idle.line)
    : (after (before ++ idle :: behind)).1 = (after (before ++ behind)).1 := by
  induction behind using List.reverseRecOn with
  | nil => rw [List.append_nil, after_idle nothing]
  | append_singleton behind timed ih =>
      obtain ⟨outcome, next, printed, yields, -⟩ :=
        settles timed.now (after (before ++ behind)).1 timed.line
      have whole := yields
      rw [← ih] at whole
      have left := after_of_yields whole
      have right := after_of_yields yields
      rw [List.append_assoc] at left right
      exact left.trans right.symm

/-- What the last line to store at a place stored is either from the last line of all, or it
is from an earlier one and the last line stored nothing there.
-/
theorem stored_append_singleton {place : Place} {content : place.Content}
    : Stored (lines ++ [timed]) place content
      ↔ (∃ ttl, Asks timed.line (place.store content ttl) ∧ ttl ≠ ⟨0⟩)
        ∨ (∀ other ttl, ¬ Asks timed.line (place.store other ttl))
          ∧ Stored lines place content := by
  constructor
  · intro stored
    obtain ⟨before, found, behind, ttl, split, asks, positive, last⟩ := stored
    rcases List.eq_nil_or_concat behind with rfl | ⟨behind, final, rfl⟩
    · obtain ⟨rfl, same⟩ := List.append_inj' split rfl
      obtain rfl := List.singleton_inj.mp same
      exact .inl ⟨ttl, asks, positive⟩
    · rw [List.concat_eq_append, ← List.cons_append, ← List.append_assoc] at split
      obtain ⟨rfl, same⟩ := List.append_inj' split rfl
      obtain rfl := List.singleton_inj.mp same
      rw [List.concat_eq_append] at last
      refine .inr ⟨last timed (by simp), before, found, behind, ttl, rfl, asks, positive, ?_⟩
      intro later member
      exact last later (List.mem_append_left _ member)
  · intro final
    rcases final with ⟨ttl, asks, positive⟩ | ⟨quiet, stored⟩
    · exact ⟨lines, timed, [], ttl, rfl, asks, positive, by simp⟩
    · obtain ⟨before, found, behind, ttl, rfl, asks, positive, last⟩ := stored
      refine ⟨before, found, behind ++ [timed], ttl, by simp, asks, positive, ?_⟩
      intro later member
      rcases List.mem_append.mp member with earlier | final
      · exact last later earlier
      · obtain rfl := List.mem_singleton.mp final
        exact quiet

theorem Lasting.of_append_singleton (lasting : Lasting (lines ++ [timed]) now)
    : Lasting lines now ∧ timed.now.nanoseconds ≤ now.nanoseconds := by
  have forward := lasting.forward
  rw [List.map_append] at forward
  obtain ⟨before, order⟩ := forward.of_append_append_singleton
  refine ⟨⟨before, lasting.within, ?_⟩, order⟩
  intro earlier member
  exact lasting.lives earlier (List.mem_append_left _ member)

/-- What was stored for an instant is gone, and the rest is there. -/
theorem Lasting.value?_written (lasting : Lasting (lines ++ [timed]) now) {place : Place}
    {content : place.Content} {ttl : Duration}
    (asks : Asks timed.line (place.store content ttl))
    : Write.value? now (some ⟨content, ttl, timed.now⟩)
      = if ttl = ⟨0⟩ then none else some content := by
  have within := lasting.within
  have order := lasting.of_append_singleton.2
  by_cases instant : ttl = ⟨0⟩
  · subst instant
    have dead : Write.lives now ⟨content, ⟨0⟩, timed.now⟩ = false := by
      simp only [Write.lives, Bool.or_eq_false_iff, decide_eq_false_iff_not]
      omega
    simp [Write.value?, Option.filter, dead]
  · have long := lasting.lives timed (by simp) place content ttl asks instant
    have live : Write.lives now ⟨content, ttl, timed.now⟩ = true := by
      simp only [Write.lives, Bool.or_eq_true, decide_eq_true_eq]
      omega
    simp [Write.value?, Option.filter, live, instant]

/-- The store shows at each place what the last line stored there, by induction on the lines
from the last one back.
-/
theorem content?_after (lasting : Lasting lines now) (place : Place) (content : place.Content)
    : (after lines).1.content? now place = some content ↔ Stored lines place content := by
  induction lines using List.reverseRecOn with
  | nil => cases place <;> simp [after, Memory.content?, Stored] <;> exact nofun
  | append_singleton lines timed ih =>
      obtain ⟨before, order⟩ := lasting.of_append_singleton
      have ih := ih before
      rw [stored_append_singleton]
      by_cases here : ∃ other ttl, Asks timed.line (place.store other ttl)
      · obtain ⟨other, ttl, asks⟩ := here
        obtain ⟨next, yields, shows⟩ := yields_of_stores timed.now place asks (after lines).1
        rw [after_of_yields yields, (shows now order).1, lasting.value?_written asks]
        constructor
        · intro found
          obtain ⟨positive, rfl⟩ : ttl ≠ ⟨0⟩ ∧ other = content := by simpa using found
          exact .inl ⟨ttl, asks, positive⟩
        · intro stored
          rcases stored with ⟨span, again, positive⟩ | ⟨quiet, -⟩
          · obtain ⟨rfl, rfl⟩ := Place.store_inj (asks.unique again)
            simp [positive]
          · exact absurd asks (quiet other ttl)
      · have quiet : ∀ other ttl, ¬ Asks timed.line (place.store other ttl) := by
          intro other ttl asks
          exact here ⟨other, ttl, asks⟩
        have absent : ¬ ∃ ttl, Asks timed.line (place.store content ttl) ∧ ttl ≠ ⟨0⟩ := by
          rintro ⟨ttl, asks, -⟩
          exact quiet content ttl asks
        rw [or_iff_right absent, and_iff_right quiet, ← ih]
        by_cases elsewhere : Idle timed.line
        · rw [after_idle elsewhere]
        · simp only [Idle, not_forall, not_not] at elsewhere
          obtain ⟨other, stored, ttl, asks⟩ := elsewhere
          obtain ⟨next, yields, shows⟩ := yields_of_stores timed.now other asks (after lines).1
          have apart : place ≠ other := by
            rintro rfl
            exact quiet stored ttl asks
          rw [after_of_yields yields, (shows now order).2 place apart]

/-- Any line behind others ends, and prints, as the values and weights that were last stored
ask for; without one of the others that stores nothing it would do the same.
-/
theorem session_refines_maps (lasting : Lasting lines now) (line : String)
    : ∃ outcome printed,
        Ends (fun key => Stored lines (.vertex key))
            (fun tail head => Stored lines (.edge tail head)) line outcome printed
        ∧ Answers lines ⟨now, line⟩ outcome printed
        ∧ ∀ before idle behind,
            lines = before ++ idle :: behind
            → Idle idle.line
            → Answers (before ++ behind) ⟨now, line⟩ outcome printed := by
  obtain ⟨outcome, next, printed, yields, ends, -⟩ := settles now (after lines).1 line
  have values (key : String) (value : Scalar)
      : (after lines).1.vertex? now key = some value ↔ Stored lines (.vertex key) value :=
    content?_after lasting (.vertex key) value
  have weights (tail head : String) (weight : Weight)
      : (after lines).1.edge? now tail head = some weight
        ↔ Stored lines (.edge tail head) weight :=
    content?_after lasting (.edge tail head) weight
  simp only [values, weights] at ends
  refine ⟨outcome, printed, ends, ?_, ?_⟩
  · exact answers_of_yields yields
  · rintro before idle behind rfl nothing
    rw [after_without nothing] at yields
    exact answers_of_yields yields

/-- A value stored for an instant takes the place of one that would have lasted. -/
theorem session_refines_maps_over_instant
    : let lines : Lines :=
        [⟨⟨0⟩, "PUT Vertex k 7"⟩, ⟨⟨5⟩, "get vertex k"⟩, ⟨⟨5⟩, "put vertex k 8 0"⟩]
      Lasting lines ⟨9⟩
      ∧ ∃ printed,
          Ends (fun key => Stored lines (.vertex key))
              (fun tail head => Stored lines (.edge tail head)) "Get VERTEX k"
              (.failed .connection) printed
          ∧ Answers lines ⟨⟨9⟩, "Get VERTEX k"⟩ (.failed .connection) printed := by
  intro lines
  have first : Asks "PUT Vertex k 7" (.putVertex "k" (.int 7) .default) :=
    asks_iff.mpr (by decide +kernel)
  have second : Asks "get vertex k" (.getVertex "k") := asks_iff.mpr (by decide +kernel)
  have third : Asks "put vertex k 8 0" (.putVertex "k" (.int 8) ⟨0⟩) :=
    asks_iff.mpr (by decide +kernel)
  have lasting : Lasting lines ⟨9⟩ := by
    refine ⟨by decide, by decide, ?_⟩
    intro timed member place content ttl asks long
    simp only [lines, List.mem_cons, List.not_mem_nil, or_false] at member
    rcases member with rfl | rfl | rfl
    · have same := asks.unique first
      cases place with
      | vertex key => cases same; decide
      | edge tail head => cases same
    · have same := asks.unique second
      cases place <;> cases same
    · have same := asks.unique third
      cases place with
      | vertex key => cases same; exact absurd rfl long
      | edge tail head => cases same
  obtain ⟨outcome, printed, ends, answers, -⟩ := session_refines_maps lasting "Get VERTEX k"
  have computed : outcome = .failed .connection := by
    rw [← answers.1]
    decide +kernel
  subst computed
  exact ⟨lasting, printed, ends, answers⟩

end Shell

end GraphShell
