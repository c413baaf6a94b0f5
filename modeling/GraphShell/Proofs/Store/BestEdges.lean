import GraphShell.Proofs.Store.Neighbourhood
import GraphShell.Store.Snapshot
import Mathlib.Data.List.Sort

/-! The edges that a limit keeps, told by counting: an edge is among the best of its tail exactly
if few enough edges out of the same tail outrank it. Heads are ranked by a linear order, so a
ranking depends on the ranked heads alone and not on how they are sorted.
-/

namespace GraphShell

-----------------------------------------------------------------------------------------
-- Order of heads
-----------------------------------------------------------------------------------------

/-- Numbers of one rank are the same number, because the rank shows sign and magnitude. -/
theorem Binary.Number.rank_injective {f : Binary.Format}
    : Function.Injective (Binary.Number.rank : Binary.Number f → Int) := by
  rintro ⟨sign, magnitude, _⟩ ⟨otherSign, otherMagnitude, _⟩ same
  cases sign <;> cases otherSign <;> simp [Binary.Number.rank] at same ⊢ <;> omega

namespace Graph

theorem better_iff {a b : String × Weight}
    : better a b = true ↔ b.2.rank < a.2.rank ∨ b.2.rank = a.2.rank ∧ a.1 ≤ b.1 := by
  simp [better]

/-- The ranking of heads as a relation. -/
def Better (a b : String × Weight) : Prop :=
  better a b = true

instance : DecidableRel Better := fun a b =>
  inferInstanceAs (Decidable (better a b = true))

instance : Std.Total Better where
  total a b := by
    simp only [Better, better_iff]
    rcases lt_trichotomy a.2.rank b.2.rank with less | equal | greater
    · exact .inr (.inl less)
    · rcases String.le_total a.1 b.1 with before | behind
      · exact .inl (.inr ⟨equal.symm, before⟩)
      · exact .inr (.inr ⟨equal, behind⟩)
    · exact .inl (.inl greater)

instance : IsTrans (String × Weight) Better where
  trans a b c hab hbc := by
    simp only [Better, better_iff] at *
    rcases hab with first | ⟨first, before⟩ <;> rcases hbc with second | ⟨second, behind⟩
    · exact .inl (second.trans first)
    · exact .inl (second ▸ first)
    · exact .inl (first ▸ second)
    · exact .inr ⟨second.trans first, String.le_trans before behind⟩

instance : Std.Antisymm Better where
  antisymm a b hab hba := by
    simp only [Better, better_iff] at *
    have ranks : a.2.rank = b.2.rank := by omega
    refine Prod.ext (String.le_antisymm ?_ ?_) (Binary.Number.rank_injective ranks)
    · exact (hab.resolve_left (by omega)).2
    · exact (hba.resolve_left (by omega)).2

/-- Ranking by insertion gives the ranking, since sorting by a linear order is unique. -/
theorem mergeSort_better (heads : List (String × Weight))
    : heads.mergeSort better = heads.insertionSort Better := by
  have same : (fun a b => decide (Better a b)) = better :=
    funext₂ fun _ _ => Bool.decide_eq_true
  exact same ▸ List.mergeSort_eq_insertionSort Better heads

variable {graph : Graph} {k : Int} {tfidf : Bool} {tail head : String} {score : Weight}

-----------------------------------------------------------------------------------------
-- Ranks
-----------------------------------------------------------------------------------------

/-- The first edge has the higher score, or the smaller head and the same score. Scores are
ordered by their ranks, which order every number of the format.
-/
def Outranks (graph : Graph) (tfidf : Bool) (first second : Edge) : Prop :=
  (graph.score tfidf second).rank < (graph.score tfidf first).rank
  ∨ graph.score tfidf second = graph.score tfidf first ∧ first.head < second.head

instance (first second : Edge) : Decidable (graph.Outranks tfidf first second) :=
  inferInstanceAs (Decidable (_ ∨ _))

/-- The graph has the edge, and fewer than `k` edges out of the same tail outrank it. A limit of
zero or less keeps all edges.
-/
def Keeps (graph : Graph) (k : Int) (tfidf : Bool) (edge : Edge) : Prop :=
  edge ∈ graph.edges
  ∧ (k ≤ 0
    ∨ (graph.edges.countP fun other =>
          other.tail = edge.tail ∧ graph.Outranks tfidf other edge)
        < k)

-----------------------------------------------------------------------------------------
-- The front of a sorted list
-----------------------------------------------------------------------------------------

/-- An item stands among the first ones of a sorted list exactly if fewer items than these go
before it, by induction on the list.
-/
theorem mem_take_iff_countP {α : Type} {before : α → α → Prop} [DecidableRel before]
    (asymmetric : ∀ a b, before a b → ¬ before b a) {items : List α}
    (sorted : items.Pairwise before) {limit : Nat} {item : α}
    : item ∈ items.take limit
      ↔ item ∈ items ∧ (items.countP fun other => before other item) < limit := by
  induction items generalizing limit with
  | nil => simp
  | cons first rest ih =>
      obtain ⟨ahead, later⟩ := List.pairwise_cons.mp sorted
      cases limit with
      | zero => simp
      | succ limit =>
          have noneAhead : (first :: rest).countP (fun other => before other first) = 0 := by
            apply List.countP_eq_zero.mpr
            intro other member
            rcases List.mem_cons.mp member with same | behind
            · subst same
              simpa using fun itself => asymmetric other other itself itself
            · simpa using asymmetric first other (ahead other behind)
          rw [List.take_succ_cons, List.mem_cons, List.mem_cons, ih later]
          constructor
          · intro front
            rcases front with same | ⟨member, few⟩
            · subst same
              exact ⟨.inl rfl, by omega⟩
            · refine ⟨.inr member, ?_⟩
              simpa [ahead item member] using few
          · intro listed
            obtain ⟨same | member, few⟩ := listed
            · exact .inl same
            · refine .inr ⟨member, ?_⟩
              simpa [ahead item member] using few

-----------------------------------------------------------------------------------------
-- Best heads
-----------------------------------------------------------------------------------------

/-- A head with its score, as it is ranked among the heads of the edge's tail. -/
def scored (graph : Graph) (tfidf : Bool) (edge : Edge) : String × Weight :=
  (edge.head, graph.score tfidf edge)

/-- The edges out of a key. -/
def outEdges (graph : Graph) (tail : String) : List Edge :=
  graph.edges.filter fun edge => edge.tail = tail

theorem mem_outEdges {edge : Edge}
    : edge ∈ graph.outEdges tail ↔ edge ∈ graph.edges ∧ edge.tail = tail := by
  simp [outEdges]

/-- The neighbors of a key are the heads of the edges out of it. -/
theorem neighbors_perm_outEdges (graph : Graph) (tail : String)
    : ((graph.neighbors tail).map fun entry => (⟨tail, entry.1, entry.2⟩ : Edge)).Perm
        (graph.outEdges tail) := by
  have separate : (graph.outEdges tail).Nodup := graph.nodup_edges.filter _
  refine (List.perm_ext_iff_of_nodup ?_ separate).mpr ?_
  · have distinct : (graph.neighbors tail).Nodup := by
      unfold neighbors
      cases graph.heads.get? tail with
      | none => exact List.nodup_nil
      | some heads => exact heads.nodup_keys.of_map
    refine distinct.map ?_
    intro left right same
    obtain ⟨-, heads, weights⟩ := Edge.mk.inj same
    exact Prod.ext heads weights
  · intro edge
    rw [mem_outEdges, mem_edges, List.mem_map]
    constructor
    · intro listed
      obtain ⟨entry, neighbor, same⟩ := listed
      subst same
      exact ⟨mem_neighbors.mp neighbor, rfl⟩
    · intro stored
      obtain ⟨found, same⟩ := stored
      subst same
      exact ⟨(edge.head, edge.weight), mem_neighbors.mpr found, rfl⟩

/-- Of two different heads the better one stands in front. -/
def StrictlyBetter (a b : String × Weight) : Prop :=
  Better a b ∧ a ≠ b

instance : DecidableRel StrictlyBetter := fun a b =>
  inferInstanceAs (Decidable (Better a b ∧ a ≠ b))

theorem strictlyBetter_scored_iff {first second : Edge}
    : StrictlyBetter (graph.scored tfidf first) (graph.scored tfidf second)
      ↔ graph.Outranks tfidf first second := by
  simp only [StrictlyBetter, Better, better_iff, scored, Outranks, ne_eq, Prod.mk.injEq, not_and,
    Binary.Number.rank_injective.eq_iff]
  constructor
  · intro better
    obtain ⟨higher | ⟨same, before⟩, differs⟩ := better
    · exact .inl higher
    · refine .inr ⟨same, ?_⟩
      exact Std.lt_of_le_of_ne before fun heads => differs heads same.symm
  · intro outranks
    rcases outranks with higher | ⟨same, before⟩
    · refine ⟨.inl higher, ?_⟩
      intro _ same
      rw [same] at higher
      exact absurd higher (lt_irrefl _)
    · refine ⟨.inr ⟨same, Std.le_of_lt before⟩, ?_⟩
      intro heads
      exact absurd heads (String.ne_of_lt before)

/-- The heads of a key in the order of their ranks. -/
def rankedHeads (graph : Graph) (tfidf : Bool) (tail : String) : List (String × Weight) :=
  graph.bestHeads tfidf none tail

theorem rankedHeads_perm (graph : Graph) (tfidf : Bool) (tail : String)
    : (graph.rankedHeads tfidf tail).Perm
        ((graph.outEdges tail).map (graph.scored tfidf)) := by
  refine (List.mergeSort_perm _ better).trans ?_
  have perm := (graph.neighbors_perm_outEdges tail).map (graph.scored tfidf)
  rwa [List.map_map] at perm

/-- Each head is listed once, so every one is strictly better than all behind it. -/
theorem rankedHeads_pairwise (graph : Graph) (tfidf : Bool) (tail : String)
    : (graph.rankedHeads tfidf tail).Pairwise StrictlyBetter := by
  have sorted : (graph.rankedHeads tfidf tail).Pairwise Better := by
    have ordered := List.pairwise_insertionSort Better
      ((graph.neighbors tail).map fun entry =>
        (entry.1, graph.score tfidf ⟨tail, entry.1, entry.2⟩))
    rwa [← mergeSort_better] at ordered
  have distinct : (graph.rankedHeads tfidf tail).Nodup := by
    rw [(graph.rankedHeads_perm tfidf tail).nodup_iff]
    refine (graph.nodup_edges.filter _).map_on ?_
    intro left hl right hr same
    obtain ⟨leftStored, leftTail⟩ := mem_outEdges.mp hl
    obtain ⟨rightStored, rightTail⟩ := mem_outEdges.mp hr
    exact edge_unique leftStored rightStored (leftTail.trans rightTail.symm)
      (congrArg Prod.fst same)
  exact sorted.and distinct

/-- The best heads under a limit are the first ones of all. -/
theorem mem_limitedHeads_iff_countP {entry : String × Weight}
    : entry ∈ graph.limitedHeads k tfidf tail
      ↔ entry ∈ graph.rankedHeads tfidf tail
        ∧ (k ≤ 0
          ∨ ((graph.rankedHeads tfidf tail).countP fun other => StrictlyBetter other entry)
            < k) := by
  by_cases unlimited : k ≤ 0
  · simp [limitedHeads, rankedHeads, unlimited]
  · have asymmetric (a b : String × Weight) (first : StrictlyBetter a b) : ¬ StrictlyBetter b a :=
      fun second => first.2 (antisymm first.1 second.1)
    have front : graph.limitedHeads k tfidf tail
        = (graph.rankedHeads tfidf tail).take k.toNat := by
      simp [limitedHeads, rankedHeads, bestHeads, unlimited]
    rw [front, mem_take_iff_countP asymmetric (graph.rankedHeads_pairwise tfidf tail),
      or_iff_right unlimited, Int.lt_toNat]

/-- The best heads of a key are those of the edges that the limit keeps, with their scores. -/
theorem mem_limitedHeads
    : (head, score) ∈ graph.limitedHeads k tfidf tail
      ↔ ∃ weight,
          graph.Keeps k tfidf ⟨tail, head, weight⟩
          ∧ score = graph.score tfidf ⟨tail, head, weight⟩ := by
  have count (edge : Edge) (atTail : edge.tail = tail)
      : ((graph.rankedHeads tfidf tail).countP fun other =>
            StrictlyBetter other (graph.scored tfidf edge))
        = graph.edges.countP fun other =>
            other.tail = edge.tail ∧ graph.Outranks tfidf other edge := by
    rw [(graph.rankedHeads_perm tfidf tail).countP_eq, List.countP_map, outEdges,
      List.countP_filter]
    refine List.countP_congr ?_
    intro other _
    simp [strictlyBetter_scored_iff, atTail, and_comm]
  rw [mem_limitedHeads_iff_countP, (graph.rankedHeads_perm tfidf tail).mem_iff, List.mem_map]
  constructor
  · intro best
    obtain ⟨⟨edge, out, same⟩, few⟩ := best
    obtain ⟨stored, atTail⟩ := mem_outEdges.mp out
    obtain ⟨rfl, rfl⟩ := Prod.mk.inj same
    subst atTail
    refine ⟨edge.weight, ⟨stored, ?_⟩, rfl⟩
    rw [← count edge rfl]
    exact few
  · intro kept
    obtain ⟨weight, ⟨stored, few⟩, rfl⟩ := kept
    refine ⟨⟨⟨tail, head, weight⟩, mem_outEdges.mpr ⟨stored, rfl⟩, rfl⟩, ?_⟩
    rw [← count _ rfl] at few
    exact few

end Graph

end GraphShell
