import GraphShell.Proofs.Graph.Edges
import GraphShell.Proofs.Graph.RoundTrip
import GraphShell.Proofs.Json.Range

/-! The text of a graph is read back as far as its weights are finite: each is read as a finite
weight, though not always the same one. A weight that is not finite is written as null, and then
nothing is read.
-/

namespace GraphShell

open Binary Json

/-- The literal of a finite weight is read as a finite weight. -/
theorem Weight.exists_reread {weight : Weight} (finite : weight.isFinite = true)
    : ∃ read, Weight.reread weight = .ok read ∧ read.isFinite = true := by
  obtain ⟨double, scaled, fits⟩ := exists_scaleByTen_single finite
  have negated : FitsSingle double.neg := fits.of_le (Nat.le_refl double.magnitude)
  refine ⟨(if weight.negative then double.neg else double).convert .single, ?_, ?_⟩
  · rw [reread, if_pos finite]
    dsimp only
    rw [scaled]
    rfl
  · cases weight.negative with
    | true => exact negated.2
    | false => exact fits.2

theorem Weight.isFinite_of_reread {weight read : Weight} (reads : Weight.reread weight = .ok read)
    : weight.isFinite = true := by
  by_contra infinite
  rw [reread, if_neg infinite] at reads
  cases reads

/-- The text of a value of a kind that can be stored is read as some value. -/
theorem Scalar.exists_reread {scalar : Scalar} (regular : scalar.Regular)
    : ∃ read, scalar.reread = .ok read := by
  cases scalar with
  | float x =>
      obtain ⟨double, scaled⟩ := exists_scaleByTen_double regular
      refine ⟨ofNumber (.scaled (if x.negative then double.neg else double)), ?_⟩
      rw [reread, scaledNumber, digitsRead, scaled]
      rfl
  | int | bool | timestamp | text => exact ⟨_, rfl⟩

namespace Graph

/-- All weights are finite. -/
def FiniteWeights (graph : Graph) : Prop :=
  ∀ edge ∈ graph.edges, edge.weight.isFinite = true

variable {graph read : Graph}

theorem finiteWeights_iff
    : graph.FiniteWeights
      ↔ ∀ heads ∈ graph.heads.values, ∀ weight ∈ heads.values, weight.isFinite = true := by
  constructor
  · intro finite heads listed weight member
    obtain ⟨edge, drawn, rfl⟩ := exists_mem_edges listed member
    exact finite edge drawn
  · intro finite edge drawn
    obtain ⟨heads, listed, found⟩ := Option.bind_eq_some_iff.mp (mem_edges.mp drawn)
    exact finite heads (KeyMap.mem_values_iff.mpr ⟨_, listed⟩) _
      (KeyMap.mem_values_iff.mpr ⟨_, found⟩)

/-- A graph with finite weights is read back, with finite weights. -/
theorem exists_reread (regular : graph.Regular) (finite : graph.FiniteWeights)
    : ∃ read, graph.reread = .ok read ∧ read.FiniteWeights := by
  obtain ⟨vertices, valued, -⟩ :=
    KeyMap.exists_traverse_eq_ok (fun _ => True) fun value member =>
      (Scalar.exists_reread (regular value member)).imp fun _ reads => ⟨reads, trivial⟩
  have weights (heads : KeyMap Weight) (listed : heads ∈ graph.heads.values)
      : ∃ read, heads.traverse Weight.reread = .ok read
        ∧ ∀ weight ∈ read.values, weight.isFinite = true :=
    KeyMap.exists_traverse_eq_ok _ fun weight member =>
      Weight.exists_reread (finiteWeights_iff.mp finite heads listed weight member)
  obtain ⟨heads, weighed, all⟩ := KeyMap.exists_traverse_eq_ok _ weights
  refine ⟨⟨vertices, heads⟩, ?_, finiteWeights_iff.mpr all⟩
  rw [reread, valued, weighed]
  rfl

/-- Only a graph with finite weights is. -/
theorem finiteWeights_of_reread (reads : graph.reread = .ok read) : graph.FiniteWeights := by
  unfold reread at reads
  cases valued : graph.vertices.traverse Scalar.reread with
  | error fault =>
      rw [valued] at reads
      cases reads
  | ok vertices =>
      rw [valued] at reads
      cases weighed : graph.heads.traverse fun heads => heads.traverse Weight.reread with
      | error fault =>
          rw [weighed] at reads
          cases reads
      | ok heads =>
          refine finiteWeights_iff.mpr fun heads listed weight member => ?_
          obtain ⟨_, inner⟩ := KeyMap.exists_of_traverse_eq_ok weighed listed
          obtain ⟨_, taken⟩ := KeyMap.exists_of_traverse_eq_ok inner member
          exact Weight.isFinite_of_reread taken

/-- The text is read as a graph, and the weights of that are finite. -/
def ReadsBack (text : String) : Prop :=
  ∃ read, ofJson text = .ok read ∧ read.FiniteWeights

/-- A graph printed on lines of its own is read exactly if its weights are finite, and then all
weights read are finite as well.
-/
theorem readsBack_line_iff (regular : graph.Regular) (layout : Layout)
    : (ReadsBack (graph.json layout ++ "\n") ↔ graph.FiniteWeights)
      ∧ ((∃ read, ofJson (graph.json layout ++ "\n") = .ok read) → graph.FiniteWeights) := by
  have text : ofJson (graph.json layout ++ "\n") = graph.reread :=
    (reads_json regular layout).decode_line
  unfold ReadsBack
  rw [text]
  have only : (∃ read, graph.reread = .ok read) → graph.FiniteWeights := by
    rintro ⟨read, reads⟩
    exact finiteWeights_of_reread reads
  refine ⟨⟨?_, exists_reread regular⟩, only⟩
  rintro ⟨read, reads, -⟩
  exact only ⟨read, reads⟩

end Graph

end GraphShell
