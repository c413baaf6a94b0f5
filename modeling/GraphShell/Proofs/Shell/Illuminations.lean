import GraphShell.Proofs.Shell.Sessions
import GraphShell.Proofs.Store.Regular

/-! What a session prints of a neighbourhood is read back exactly if the weights shown are finite.
Lines store finite weights only, so these are: in every tree, and in the plain view unless scores
are asked for where weights of both signs leave a key.
-/

namespace GraphShell.Shell

open Binary

variable {line printed : String} {memory : Memory} {lines : Lines} {timed : TimedLine} {view : View}
  {seed tail head : String} {step k : Int64} {tfidf : Bool}

-----------------------------------------------------------------------------------------
-- What lines store
-----------------------------------------------------------------------------------------

theorem Asks.regular_value {key : String} {value : Scalar} {ttl : Duration}
    (asks : Asks line (.putVertex key value ttl))
    : value.Regular := by
  obtain ⟨_, -, _, -, fields⟩ := asks
  cases fields with
  | putVertex coerced lives => exact coerced ▸ Token.regular_coerce _

theorem Asks.isFinite_weight {weight : Weight} {ttl : Duration}
    (asks : Asks line (.addEdge tail head weight ttl))
    : weight.isFinite = true := by
  obtain ⟨_, -, _, -, fields⟩ := asks
  cases fields with
  | addEdge weighs lives =>
      obtain ⟨_, -, -, -, finite⟩ := weighs
      exact finite

/-- A line leaves only regular values and finite weights in a store that had no others. -/
theorem regular_runLine (regular : memory.Regular) (now : Instant) (line : String)
    (console : Console)
    : ((standard (Memory.store now)).runLine line memory console).2.1.Regular := by
  by_cases idle : Idle line
  · obtain ⟨_, _, _, yields, -, same⟩ := settles now memory line
    rw [yields.goes, same idle]
    exact regular
  · simp only [Idle, not_forall, not_not] at idle
    obtain ⟨place, content, ttl, asks⟩ := idle
    cases place with
    | vertex key =>
        have yields : Yields (standard (Memory.store now)) line memory .done
            (memory.putVertex now key content ttl) "" :=
          yields_of_silence asks rfl
        rw [yields.goes]
        exact regular.putVertex asks.regular_value now key ttl
    | edge tail head =>
        have yields : Yields (standard (Memory.store now)) line memory .done
            (memory.addEdge now tail head content ttl) "" :=
          yields_of_silence asks rfl
        rw [yields.goes]
        exact regular.addEdge asks.isFinite_weight now tail head ttl

/-- So do all lines of a session, by induction on them from the last one back. -/
theorem regular_after (lines : Lines) : (after lines).1.Regular := by
  induction lines using List.reverseRecOn with
  | nil => exact Memory.regular_empty
  | append_singleton lines timed ih =>
      rw [after_append_singleton]
      exact regular_runLine ih timed.now timed.line (after lines).2

-----------------------------------------------------------------------------------------
-- What lines print
-----------------------------------------------------------------------------------------

/-- A line has one outcome, and prints one text. -/
theorem Answers.unique {first second : Outcome} {text : String}
    (answers : Answers lines timed first printed) (again : Answers lines timed second text)
    : first = second ∧ printed = text := by
  refine ⟨answers.1.symm.trans again.1, ?_⟩
  have both := congrArg String.toList (answers.2.symm.trans again.2)
  rw [String.toList_append, String.toList_append] at both
  exact String.toList_inj.mp (List.append_cancel_left both)

/-- The live graph that a session leads to. -/
def liveGraph (lines : Lines) (now : Instant) : Graph :=
  (after lines).1.liveGraph now

/-- A line that asks for a view of a neighbourhood and is done has printed the view. -/
theorem exists_of_answers_illuminate (asks : Asks timed.line (.illuminate view seed step k tfidf))
    (answers : Answers lines timed .done printed)
    : ∃ found,
        (liveGraph lines timed.now).illuminate? seed step.toInt k.toInt tfidf = some found
        ∧ printed = (found.derive view seed).json (.spread 0) ++ "\n" := by
  obtain ⟨_, _, _, yields, ends, -⟩ := settles_illuminate timed.now (after lines).1 asks
  obtain ⟨rfl, rfl⟩ := answers.unique (answers_of_yields yields)
  cases ends with
  | view asked made lit =>
      cases asks.unique asked
      obtain rfl := made.unique ((after lines).1.madeOf_liveGraph timed.now)
      exact ⟨_, lit, rfl⟩
  | value asked | weight asked => cases asks.unique asked
  | stored place asked => cases place <;> cases asks.unique asked

/-- What a session prints of a neighbourhood is read back exactly if the weights shown are finite;
otherwise nothing is read. They are in every tree, in the plain view of weights, and in that of
scores if the weights out of each key have one sign.
-/
theorem illuminated_reads_back (lines : Lines) {timed : TimedLine}
    (asks : Asks timed.line (.illuminate view seed step k tfidf))
    (answers : Answers lines timed .done printed)
    : ∃ found,
        (liveGraph lines timed.now).illuminate? seed step.toInt k.toInt tfidf = some found
        ∧ printed = (found.derive view seed).json (.spread 0) ++ "\n"
        ∧ (Graph.ReadsBack printed ↔ (found.derive view seed).FiniteWeights)
        ∧ ((∃ read, Graph.ofJson printed = .ok read) → Graph.ReadsBack printed)
        ∧ (view ≠ .neighbor ∨ tfidf = false ∨ (liveGraph lines timed.now).Scorable
          → Graph.ReadsBack printed) := by
  obtain ⟨regular, finite⟩ := (regular_after lines).liveGraph timed.now
  obtain ⟨found, lit, rfl⟩ := exists_of_answers_illuminate asks answers
  have rooted := Graph.rooted_of_illuminate lit
  have shown : (found.derive view seed).Regular := by
    unfold Graph.Regular
    rw [rooted.vertices_derive view]
    exact regular.illuminate lit
  obtain ⟨back, only⟩ := Graph.readsBack_line_iff shown (.spread 0)
  refine ⟨found, lit, rfl, back, fun read => back.mpr (only read), fun calm => back.mpr ?_⟩
  exact rooted.finiteWeights_derive
    (calm.imp_right fun calm => Graph.finiteWeights_of_illuminate finite calm lit)

/-- Two weights that leave next to nothing together do no harm in a tree, which shows the greatest
weight for scores that are not finite.
-/
theorem illuminated_reads_back_of_tree
    : let lines : Lines :=
        [⟨⟨0⟩, "add edge s a 3e38"⟩, ⟨⟨0⟩, "add edge s b -3e38"⟩, ⟨⟨0⟩, "add edge s c 1e-10"⟩]
      let line := "illuminate spt_cost s 1 0 true"
      Asks line (.illuminate .sptCost "s" 1 0 true)
      ∧ ∃ printed,
          Answers lines ⟨⟨0⟩, line⟩ .done printed
          ∧ View.sptCost ≠ .neighbor
          ∧ Graph.ReadsBack printed := by
  intro lines line
  have asks : Asks line (.illuminate .sptCost "s" 1 0 true) := asks_iff.mpr (by decide +kernel)
  have contained : (liveGraph lines ⟨0⟩).contains "s" = true := by decide +kernel
  have lit : ∃ found, (liveGraph lines ⟨0⟩).illuminate? "s" 1 0 true = some found :=
    ⟨_, if_neg (by simp [contained])⟩
  obtain ⟨found, lit⟩ := lit
  have answers : Answers lines ⟨⟨0⟩, line⟩ .done _ :=
    answers_of_yields (yields_of_illuminate asks lit)
  obtain ⟨-, -, -, -, -, back⟩ := illuminated_reads_back lines asks answers
  exact ⟨asks, _, answers, nofun, back (.inl nofun)⟩

/-- In the plain view they do: scores that are not finite are written as nulls, which are no
weights.
-/
theorem illuminated_is_lost_of_cancelling
    : let lines : Lines :=
        [⟨⟨0⟩, "add edge s a 3e38"⟩, ⟨⟨0⟩, "add edge s b -3e38"⟩, ⟨⟨0⟩, "add edge s c 1e-10"⟩]
      let line := "illuminate neighbor s 1 0 true"
      let scored : Graph :=
        ⟨.empty, .ofList [("s", .ofList [("a", .infinite false), ("b", .infinite true),
          ("c", (Number.ln 3).convert .single)])]⟩
      let printed := scored.json (.spread 0) ++ "\n"
      Asks line (.illuminate .neighbor "s" 1 0 true)
      ∧ Answers lines ⟨⟨0⟩, line⟩ .done printed
      ∧ ¬ Graph.ReadsBack printed := by
  intro lines line scored printed
  have asks : Asks line (.illuminate .neighbor "s" 1 0 true) := asks_iff.mpr (by decide +kernel)
  have lit : (liveGraph lines ⟨0⟩).illuminate? "s" 1 0 true = some scored := by
    simp only [Graph.illuminate?, Graph.bestHeads, Graph.mergeSort_better, lines, scored]
    decide +kernel
  have answers : Answers lines ⟨⟨0⟩, line⟩ .done
      ((scored.derive .neighbor "s").json (.spread 0) ++ "\n") :=
    answers_of_yields (yields_of_illuminate asks lit)
  refine ⟨asks, answers, ?_⟩
  have nothing : Graph.ofJson printed = .error .mismatched := by decide +kernel
  rintro ⟨read, reads, -⟩
  rw [nothing] at reads
  cases reads

end GraphShell.Shell
