import GraphShell.Proofs.Graph.Optimality
import GraphShell.Proofs.Graph.SettlingOrder

/-! Which of several equally cheap edges the shortest-path tree has. The tree tells the order in
which its keys were settled, and among the tails that tie it takes the one that is first in that
order, which need not be the first in the order of keys.
-/

namespace GraphShell.Graph

open Binary

variable {graph : Graph} {map : WeightMap} {seed key tail head : String} {label : Label}
  {cost cost' : Double} {order : List String}

-----------------------------------------------------------------------------------------
-- Costs inside the tree
-----------------------------------------------------------------------------------------

/-- The walk to the key inside the shortest-path tree has the cost. -/
def TreeCost (graph : Graph) (map : WeightMap) (seed key : String) (cost : Double) : Prop :=
  ∃ path,
    graph.Walk seed path key
    ∧ (graph.shortestPathTree map seed).Inside path
    ∧ pathCost map path = cost

/-- The edge between the keys makes the head cost exactly what it costs inside the tree. -/
def Ties (graph : Graph) (map : WeightMap) (seed tail head : String) : Prop :=
  ∃ weight cost,
    graph.weight? tail head = some weight
    ∧ graph.TreeCost map seed tail cost
    ∧ graph.TreeCost map seed head (cost + map.cost weight)

/-- A key costs inside the tree what it is labelled with. -/
theorem treeCost_iff (contained : graph.contains seed = true)
    : graph.TreeCost map seed key cost
      ↔ ∃ label, (graph.pathLabels map seed).get? key = some label ∧ label.cost = cost := by
  obtain ⟨explored, _, done⟩ := explored_pathLabels graph map seed
  have walks (label : Label) (found : (graph.pathLabels map seed).get? key = some label)
      : ∃ path,
          graph.Walk seed path key
          ∧ (graph.shortestPathTree map seed).Inside path
          ∧ pathCost map path = label.cost := by
    have settled : Settled (graph.pathLabels map seed) key :=
      ⟨label, found, settled_of_nextOpen_eq_none done found⟩
    obtain ⟨path, known, walk, inside, stored, sum⟩ :=
      exists_walk_of_hangs contained (descends_pathLabels graph map seed key settled)
    obtain rfl := Option.some.inj (found.symm.trans stored)
    exact ⟨path, walk, inside, sum.symm⟩
  constructor
  · intro costs
    obtain ⟨path, walk, inside, rfl⟩ := costs
    have within : Within (graph.pathLabels map seed) key _ := walk.within_pathLabels
    obtain ⟨label, found, _⟩ := within
    obtain ⟨path', walk', inside', sum⟩ := walks label found
    obtain rfl := walk.unique contained walk' inside inside'
    exact ⟨label, found, sum.symm⟩
  · intro labelled
    obtain ⟨label, found, rfl⟩ := labelled
    exact walks label found

theorem TreeCost.unique (contained : graph.contains seed = true)
    (left : graph.TreeCost map seed key cost) (right : graph.TreeCost map seed key cost')
    : cost = cost' := by
  obtain ⟨label, found, rfl⟩ := (treeCost_iff contained).mp left
  obtain ⟨label', found', rfl⟩ := (treeCost_iff contained).mp right
  rw [Option.some.inj (found.symm.trans found')]

/-- A tail ties with the tree if it offers what the head is labelled with. -/
theorem ties_iff (contained : graph.contains seed = true)
    : graph.Ties map seed tail head
      ↔ ∃ label,
          (graph.pathLabels map seed).get? head = some label
          ∧ Matches graph map (graph.pathLabels map seed) tail head label := by
  simp only [Ties, treeCost_iff contained, Matches]
  constructor
  · intro ties
    obtain ⟨weight, _, edge, ⟨origin, found, rfl⟩, label, labelled, sum⟩ := ties
    exact ⟨label, labelled, origin, weight, found, edge, sum⟩
  · intro offered
    obtain ⟨label, labelled, origin, weight, found, edge, sum⟩ := offered
    exact ⟨weight, _, edge, ⟨origin, found, rfl⟩, label, labelled, sum⟩

-----------------------------------------------------------------------------------------
-- The order that the tree tells
-----------------------------------------------------------------------------------------

/-- The key is the seed, or it hangs in the tree on one of the keys. -/
def Ready (graph : Graph) (map : WeightMap) (seed : String) (keys : List String) (key : String)
    : Prop :=
  key = seed ∨ ∃ parent ∈ keys, (graph.shortestPathTree map seed).Adjacent parent key

/-- The keys in reach from the seed, each once. After any of them the next is ready, and it is the
earliest in cost and key of all that are.
-/
structure SettlingOrder (graph : Graph) (map : WeightMap) (seed : String) (order : List String)
    : Prop where
  nodup : order.Nodup
  members : ∀ key, key ∈ order ↔ graph.Reaches seed key
  next
    : ∀ before key,
        before ++ [key] <+: order
        → graph.Ready map seed before key
          ∧ ∀ other cost cost',
              other ∉ before ++ [key]
              → graph.Ready map seed before other
              → graph.TreeCost map seed key cost
              → graph.TreeCost map seed other cost'
              → Earlier cost key cost' other

/-- The last edge of the walk to the key adds to its cost, or the key is the seed. -/
def Rises (graph : Graph) (map : WeightMap) (seed key : String) : Prop :=
  key = seed
  ∨ ∃ parent cost cost',
      (graph.shortestPathTree map seed).Adjacent parent key
      ∧ graph.TreeCost map seed parent cost
      ∧ graph.TreeCost map seed key cost'
      ∧ cost.lt cost' = true

theorem ready_iff_offered (contained : graph.contains seed = true) {keys : List String}
    (found : (graph.pathLabels map seed).get? key = some label)
    : graph.Ready map seed keys key ↔ Offered seed keys key label := by
  have done := (explored_pathLabels graph map seed).2.2
  have same (parent : String)
      : (graph.shortestPathTree map seed).Adjacent parent key ↔ label.parent = some parent := by
    rw [adjacent_shortestPathTree_iff contained, Hangs]
    simp [found, settled_of_nextOpen_eq_none done found]
  simp only [Ready, Offered, same]

/-- The order of the rounds is the one that the tree tells. -/
theorem Settling.settlingOrder (contained : graph.contains seed = true)
    (settling : Settling graph map seed (graph.pathLabels map seed) order)
    : graph.SettlingOrder map seed order := by
  refine ⟨settling.nodup, ?_, ?_⟩
  · intro key
    rw [settling.members]
    constructor
    · intro settled
      obtain ⟨label, found, _⟩ := settled
      exact (contains_pathLabels_iff map).mp (KeyMap.contains_iff.mpr ⟨label, found⟩)
    · exact settled_pathLabels map
  · intro before key front
    obtain ⟨label, found, _⟩ := (settling.members key).mp (front.subset (by simp))
    obtain ⟨offered, least⟩ := settling.chosen before key label front found
    refine ⟨(ready_iff_offered contained found).mpr offered, ?_⟩
    intro other cost cost' behind ready costs costs'
    obtain ⟨label', found', rfl⟩ := (treeCost_iff contained).mp costs
    obtain ⟨rival, labelled, rfl⟩ := (treeCost_iff contained).mp costs'
    obtain rfl := Option.some.inj (found.symm.trans found')
    exact least other rival behind labelled ((ready_iff_offered contained labelled).mp ready)

-----------------------------------------------------------------------------------------
-- Costs along the order
-----------------------------------------------------------------------------------------

theorem TreeCost.unsigned (costs : graph.TreeCost map seed key cost) : cost.Unsigned := by
  obtain ⟨path, _, _, rfl⟩ := costs
  exact unsigned_pathCost map path

theorem TreeCost.reaches (contained : graph.contains seed = true)
    (costs : graph.TreeCost map seed key cost)
    : (graph.shortestPathTree map seed).Reaches seed key := by
  obtain ⟨label, found, _⟩ := (treeCost_iff contained).mp costs
  apply reaches_shortestPathTree map contained
  exact (contains_pathLabels_iff map).mp (KeyMap.contains_iff.mpr ⟨label, found⟩)

/-- The key that another one hangs on in the tree costs no more. -/
theorem TreeCost.exists_le (contained : graph.contains seed = true)
    (edge : (graph.shortestPathTree map seed).Adjacent tail head)
    (costs : graph.TreeCost map seed head cost)
    : ∃ less, graph.TreeCost map seed tail less ∧ less.magnitude ≤ cost.magnitude := by
  have priced := (balanced_pathLabels graph map seed).priced
  obtain ⟨label, labelled, rfl⟩ := (treeCost_iff contained).mp costs
  obtain ⟨label', labelled', _, named⟩ := (adjacent_shortestPathTree_iff contained).mp edge
  obtain rfl := Option.some.inj (labelled.symm.trans labelled')
  obtain ⟨origin, weight, found, _, _, sum⟩ := priced.summed head label tail labelled named
  refine ⟨origin.cost, (treeCost_iff contained).mpr ⟨origin, found, rfl⟩, ?_⟩
  rw [sum]
  exact ((priced.unsigned tail origin found).add (map.unsigned_cost weight)
    (map.isFinite_cost weight)).2

theorem Earlier.magnitude_le (earlier : Earlier cost tail cost' head)
    (costs : cost.Unsigned) (costs' : cost'.Unsigned)
    : cost.magnitude ≤ cost'.magnitude := by
  rcases earlier with less | ⟨rfl, _⟩
  · exact ((costs.lt_iff costs').mp less).le
  · exact Nat.le_refl _

variable {before : List String}

/-- No key costs less than the one that is next, unless it stands in front of it: a key that is not
ready yet costs no less than the first one on its walk that is. By induction on that walk.
-/
theorem SettlingOrder.magnitude_le (contained : graph.contains seed = true)
    (settles : graph.SettlingOrder map seed order) (front : before ++ [tail] <+: order)
    (behind : key ∉ before) (costs : graph.TreeCost map seed tail cost)
    (costs' : graph.TreeCost map seed key cost')
    : cost.magnitude ≤ cost'.magnitude := by
  have ready {key : String} {cost' : Double} (behind : key ∉ before)
      (isReady : graph.Ready map seed before key) (costs' : graph.TreeCost map seed key cost')
      : cost.magnitude ≤ cost'.magnitude := by
    by_cases same : key = tail
    · subst same
      rw [TreeCost.unique contained costs costs']
    · have absent : key ∉ before ++ [tail] := by simp [behind, same]
      exact ((settles.next before tail front).2 key cost cost' absent isReady costs
        costs').magnitude_le costs.unsigned costs'.unsigned
  have reached := costs'.reaches contained
  induction reached generalizing cost' with
  | refl => exact ready behind (.inl rfl) costs'
  | @tail parent key walk edge ih =>
      by_cases placed : parent ∈ before
      · exact ready behind (.inr ⟨parent, placed, edge⟩) costs'
      · obtain ⟨middle, between, low⟩ := costs'.exists_le contained edge
        exact (ih placed between).trans low

/-- A key whose cost rises comes behind the one that is next, in the order of costs and keys: either
it is ready too, or the key that it hangs on costs no less than the next one.
-/
theorem SettlingOrder.earlier_of_rises (contained : graph.contains seed = true)
    (settles : graph.SettlingOrder map seed order) (front : before ++ [tail] <+: order)
    (behind : key ∉ before) (differs : key ≠ tail) (rises : graph.Rises map seed key)
    (costs : graph.TreeCost map seed tail cost) (costs' : graph.TreeCost map seed key cost')
    : Earlier cost tail cost' key := by
  have absent : key ∉ before ++ [tail] := by simp [behind, differs]
  have ready (isReady : graph.Ready map seed before key) : Earlier cost tail cost' key :=
    (settles.next before tail front).2 key cost cost' absent isReady costs costs'
  rcases rises with atSeed | ⟨parent, middle, top, edge, between, above, less⟩
  · exact ready (.inl atSeed)
  · by_cases placed : parent ∈ before
    · exact ready (.inr ⟨parent, placed, edge⟩)
    · obtain rfl := TreeCost.unique contained above costs'
      have low := settles.magnitude_le contained front placed costs between
      have strict := (between.unsigned.lt_iff above.unsigned).mp less
      exact .inl ((costs.unsigned.lt_iff above.unsigned).mpr (low.trans_lt strict))

-----------------------------------------------------------------------------------------
-- Ties
-----------------------------------------------------------------------------------------

/-- The tree tells an order of the keys in reach, each of which is the next that its walk allows by
cost and key. Of all tails that reach a head as cheaply as the tree does, the tree has the edge from
the one that is first in that order; it is the earliest in cost and key among those whose own cost
rises with their last edge.
-/
theorem shortestPathTree_ties (map : WeightMap) (contained : graph.contains seed = true)
    : ∃ order,
        graph.SettlingOrder map seed order
        ∧ ∀ tail head,
            (graph.shortestPathTree map seed).Adjacent tail head
            → graph.Ties map seed tail head
              ∧ (∃ before,
                  before ++ [tail] <+: order
                  ∧ ∀ rival ∈ before, ¬ graph.Ties map seed rival head)
              ∧ ∀ rival cost cost',
                  rival ≠ tail
                  → graph.Ties map seed rival head
                  → graph.Rises map seed rival
                  → graph.TreeCost map seed tail cost
                  → graph.TreeCost map seed rival cost'
                  → Earlier cost tail cost' rival := by
  obtain ⟨order, settling⟩ := settling_pathLabels graph map seed
  have settles := settling.settlingOrder contained
  have priced := (balanced_pathLabels graph map seed).priced
  refine ⟨order, settles, ?_⟩
  intro tail head edge
  obtain ⟨label, found, final, named⟩ := (adjacent_shortestPathTree_iff contained).mp edge
  obtain ⟨origin, weight, source, settled, stored, sum⟩ :=
    priced.summed head label tail found named
  obtain ⟨before, behind, parts⟩ :=
    List.append_of_mem ((settling.members tail).mpr ⟨origin, source, settled⟩)
  have front : before ++ [tail] <+: order := ⟨behind, by rw [parts]; simp⟩
  have first : ∀ rival ∈ before, ¬ graph.Ties map seed rival head := by
    intro rival member ties
    obtain ⟨label', found', offered⟩ := (ties_iff contained).mp ties
    obtain rfl := Option.some.inj (found.symm.trans found')
    exact settling.earliest before tail head label front found named rival member offered
  refine ⟨(ties_iff contained).mpr ⟨label, found, origin, weight, source, stored, sum⟩,
    ⟨before, front, first⟩, ?_⟩
  intro rival cost cost' differs ties rises costs costs'
  have behind : rival ∉ before := fun member => first rival member ties
  exact settles.earlier_of_rises contained front behind differs rises costs costs'

/-- In a diamond of equal weights the tree has the edge from the smaller of the two middle keys. -/
theorem shortestPathTree_ties_of_diamond
    : let graph := (((empty.insertEdge "s" "a" 1).insertEdge "s" "b" 1).insertEdge
        "a" "v" 1).insertEdge "b" "v" 1
      graph.contains "s" = true
      ∧ graph.Ties .identity "s" "b" "v"
      ∧ (graph.shortestPathTree .identity "s").Adjacent "a" "v"
      ∧ ∀ cost cost',
          graph.TreeCost .identity "s" "a" cost
          → graph.TreeCost .identity "s" "b" cost'
          → Earlier cost "a" cost' "b" := by
  intro graph
  have contained : graph.contains "s" = true := by decide +kernel
  have toV : (graph.shortestPathTree .identity "s").Adjacent "a" "v" := ⟨1, by decide +kernel⟩
  have toB : (graph.shortestPathTree .identity "s").Adjacent "s" "b" := ⟨1, by decide +kernel⟩
  have costOf (key : String) (label : Label)
      (found : (graph.pathLabels .identity "s").get? key = some label)
      : graph.TreeCost .identity "s" key label.cost :=
    (treeCost_iff contained).mpr ⟨label, found, rfl⟩
  have costS := costOf "s" ⟨.zero false, none, true⟩ (by decide +kernel)
  have costB := costOf "b" ⟨1, some "s", true⟩ (by decide +kernel)
  have costV := costOf "v" ⟨1 + WeightMap.identity.cost 1, some "a", true⟩ (by decide +kernel)
  have ties : graph.Ties .identity "s" "b" "v" := ⟨1, 1, by decide +kernel, costB, costV⟩
  have rises : graph.Rises .identity "s" "b" :=
    .inr ⟨"s", .zero false, 1, toB, costS, costB, by decide +kernel⟩
  obtain ⟨order, _, each⟩ := shortestPathTree_ties .identity contained
  exact ⟨contained, ties, toV, fun cost cost' costs costs' =>
    (each "a" "v" toV).2.2 "b" cost cost' (by decide) ties rises costs costs'⟩

/-- Two edges lead to `v` at the same cost, and the tree has the one from the greater key: that key
costs less itself, so it was settled first, and a later offer has to be less to be taken.
-/
theorem shortestPathTree_ties_against_key_order
    : let graph := ((empty.insertEdge "s" "a" 1).insertEdge "a" "v" 1).insertEdge "s" "v" 2
      let tree := graph.shortestPathTree .identity "s"
      graph.contains "s" = true
      ∧ graph.Ties .identity "s" "a" "v"
      ∧ (∀ tail, graph.Ties .identity "s" tail "v" → "a" ≤ tail)
      ∧ ¬ tree.Reaches "v" "a"
      ∧ ¬ tree.Adjacent "a" "v"
      ∧ tree.Adjacent "s" "v" := by
  intro graph tree
  have contained : graph.contains "s" = true := by decide +kernel
  have listed : graph.edges = [⟨"a", "v", 1⟩, ⟨"s", "a", 1⟩, ⟨"s", "v", 2⟩] := by decide +kernel
  have shown : tree.edges = [⟨"s", "a", 1⟩, ⟨"s", "v", 2⟩] := by decide +kernel
  have ties : graph.Ties .identity "s" "a" "v" := by
    have costA : (graph.pathLabels .identity "s").get? "a" = some ⟨1, some "s", true⟩ := by
      decide +kernel
    have costV : (graph.pathLabels .identity "s").get? "v"
        = some ⟨1 + WeightMap.identity.cost 1, some "s", true⟩ := by
      decide +kernel
    exact ⟨1, 1, by decide +kernel, (treeCost_iff contained).mpr ⟨_, costA, rfl⟩,
      (treeCost_iff contained).mpr ⟨_, costV, rfl⟩⟩
  have absent (tail head : String) (edge : tree.Adjacent tail head) : tail = "s" := by
    obtain ⟨weight, stored⟩ := edge
    have member : (⟨tail, head, weight⟩ : Edge) ∈ tree.edges := mem_edges.mpr stored
    rw [shown] at member
    simp only [List.mem_cons, Edge.mk.injEq, List.not_mem_nil, or_false] at member
    exact member.elim And.left And.left
  refine ⟨contained, ties, ?_, ?_, ?_, 2, by decide +kernel⟩
  · intro tail rival
    obtain ⟨weight, _, stored, _⟩ := rival
    have member : (⟨tail, "v", weight⟩ : Edge) ∈ graph.edges := mem_edges.mpr stored
    rw [listed] at member
    simp only [List.mem_cons, Edge.mk.injEq, List.not_mem_nil, or_false] at member
    rcases member with ⟨rfl, _⟩ | ⟨_, other, _⟩ | ⟨rfl, _⟩
    · decide
    · exact absurd other (by decide)
    · decide
  · intro reached
    rcases Relation.ReflTransGen.cases_head reached with same | ⟨next, edge, _⟩
    · exact absurd same (by decide)
    · exact absurd (absent "v" next edge) (by decide)
  · intro edge
    exact absurd (absent "a" "v" edge) (by decide)

end GraphShell.Graph
