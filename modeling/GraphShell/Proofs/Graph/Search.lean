import GraphShell.Graph.Trees
import GraphShell.Proofs.Graph.Edges
import Mathlib.Data.Finset.Card
import Mathlib.Data.Finset.Dedup

/-! The search from a seed meets exactly the keys that edges lead to, and it settles every
key that it meets. Neither depends on the costs: each round settles one more key, whichever
it is, and labels the heads of all its edges.
-/

namespace GraphShell.Graph

variable {graph : Graph} {map : WeightMap} {seed : String} {labels : Labels}

-----------------------------------------------------------------------------------------
-- The choice of the next key
-----------------------------------------------------------------------------------------

/-- An item that ranks below those in front of it and no higher than those behind it ranks no
higher than any.
-/
theorem le_of_split {α : Type} {rank : α → Int} {before behind : List α} {best item : α}
    (above : ∀ item ∈ before, rank best < rank item)
    (least : ∀ item ∈ behind, rank best ≤ rank item) (member : item ∈ before ++ best :: behind)
    : rank best ≤ rank item := by
  rcases List.mem_append.mp member with front | rest
  · exact (above item front).le
  · rcases List.mem_cons.mp rest with rfl | back
    · exact Int.le_refl _
    · exact least item back

/-- The chosen item is the first of the least rank: it ranks below those in front of it and no
higher than those behind it. By induction on the items behind the first.
-/
theorem exists_split_of_leastBy {α : Type} {rank : α → Int} {items : List α} {best : α}
    (chosen : leastBy rank items = some best)
    : ∃ before behind,
        items = before ++ best :: behind
        ∧ (∀ item ∈ before, rank best < rank item)
        ∧ ∀ item ∈ behind, rank best ≤ rank item := by
  cases items with
  | nil => cases chosen
  | cons first rest =>
      obtain rfl := Option.some.inj chosen
      clear chosen
      induction rest generalizing first with
      | nil => exact ⟨[], [], rfl, by simp, by simp⟩
      | cons next rest ih =>
          rw [List.foldl_cons]
          split
          · next less =>
              obtain ⟨before, behind, parts, above, least⟩ := ih next
              have low := le_of_split above least (parts ▸ List.mem_cons_self)
              refine ⟨first :: before, behind, ?_, ?_, least⟩
              · rw [parts, List.cons_append]
              · exact List.forall_mem_cons.mpr ⟨low.trans_lt less, above⟩
          · next kept =>
              have atMost := Int.not_lt.mp kept
              obtain ⟨before, behind, parts, above, least⟩ := ih first
              cases before with
              | nil =>
                  obtain ⟨same, rfl⟩ := List.cons.inj parts
                  rw [← same] at least ⊢
                  refine ⟨[], next :: rest, rfl, by simp, ?_⟩
                  exact List.forall_mem_cons.mpr ⟨atMost, least⟩
              | cons other before =>
                  obtain ⟨rfl, shorter⟩ := List.cons.inj parts
                  obtain ⟨below, others⟩ := List.forall_mem_cons.mp above
                  refine ⟨first :: next :: before, behind, ?_, ?_, least⟩
                  · exact congrArg (fun rest => first :: next :: rest) shorter
                  · simp only [List.forall_mem_cons]
                    exact ⟨below, below.trans_le atMost, others⟩

theorem mem_of_leastBy {α : Type} {rank : α → Int} {items : List α} {best : α}
    (chosen : leastBy rank items = some best)
    : best ∈ items := by
  obtain ⟨before, behind, rfl, _, _⟩ := exists_split_of_leastBy chosen
  simp

theorem le_of_leastBy {α : Type} {rank : α → Int} {items : List α} {best item : α}
    (chosen : leastBy rank items = some best) (member : item ∈ items)
    : rank best ≤ rank item := by
  obtain ⟨before, behind, rfl, above, least⟩ := exists_split_of_leastBy chosen
  exact le_of_split above least member

theorem leastBy_eq_none_iff {α : Type} {rank : α → Int} {items : List α}
    : leastBy rank items = none ↔ items = [] := by
  cases items <;> simp [leastBy]

/-- The cost of the key is final. -/
def Settled (labels : Labels) (key : String) : Prop :=
  ∃ label, labels.get? key = some label ∧ label.settled = true

instance (labels : Labels) : DecidablePred (Settled labels) := fun key =>
  decidable_of_iff ((labels.get? key).any Label.settled = true) (Option.any_eq_true _ _)

theorem nextOpen_eq_some {key : String} {cost : Double}
    (next : nextOpen labels = some (key, cost))
    : ∃ label, labels.get? key = some label ∧ label.settled = false ∧ label.cost = cost := by
  obtain ⟨entry, chosen, same⟩ := Option.map_eq_some_iff.mp next
  obtain ⟨member, isOpen⟩ := List.mem_filter.mp (mem_of_leastBy chosen)
  obtain ⟨rfl, rfl⟩ := Prod.mk.inj same
  exact ⟨entry.2, KeyMap.get?_eq_some_iff.mpr member, by simpa using isOpen, rfl⟩

theorem settled_of_nextOpen_eq_none {key : String} {label : Label}
    (done : nextOpen labels = none) (found : labels.get? key = some label)
    : label.settled = true := by
  have closed := leastBy_eq_none_iff.mp (Option.map_eq_none_iff.mp done)
  have absent := List.filter_eq_nil_iff.mp closed _ (KeyMap.get?_eq_some_iff.mp found)
  simpa using absent

-----------------------------------------------------------------------------------------
-- What an offer may change
-----------------------------------------------------------------------------------------

/-- From some labels to later ones within a round: settled keys keep their labels, no other
key is settled, and no key is lost.
-/
structure Refines (before after : Labels) : Prop where
  settled
    : ∀ key label,
        label.settled = true → (after.get? key = some label ↔ before.get? key = some label)
  keeps : ∀ key, before.contains key = true → after.contains key = true

theorem Refines.refl (labels : Labels) : Refines labels labels :=
  ⟨fun _ _ _ => Iff.rfl, fun _ present => present⟩

theorem Refines.trans {before middle after : Labels}
    (first : Refines before middle) (second : Refines middle after)
    : Refines before after :=
  ⟨
    fun key label final => (second.settled key label final).trans (first.settled key label final),
    fun key present => second.keeps key (first.keeps key present)
  ⟩

theorem Refines.settled_iff {before after : Labels} (refines : Refines before after)
    {key : String}
    : Settled after key ↔ Settled before key :=
  exists_congr fun label =>
    and_congr_left fun final => refines.settled key label final

/-- An offer leaves the labels as they are if the key is settled or costs no more, and otherwise
it gives the key a new label.
-/
theorem offer_cases (parent head : String) (cost : Double) (labels : Labels)
    : (offer parent head cost labels = labels
        ∧ ∃ known,
            labels.get? head = some known ∧ (known.settled = true ∨ cost.lt known.cost = false))
      ∨ (offer parent head cost labels = labels.insert head ⟨cost, some parent, false⟩
          ∧ ∀ known,
              labels.get? head = some known
              → known.settled = false ∧ cost.lt known.cost = true) := by
  unfold offer
  cases found : labels.get? head with
  | none => exact .inr ⟨rfl, nofun⟩
  | some known =>
      dsimp only
      split
      · next better =>
          refine .inr ⟨rfl, ?_⟩
          intro other same
          obtain rfl := Option.some.inj same
          simpa using better
      · next kept =>
          refine .inl ⟨rfl, known, rfl, ?_⟩
          cases final : known.settled with
          | true => exact .inl rfl
          | false => exact .inr (by simpa [final] using kept)

/-- A key that takes an offer has not been settled. -/
theorem not_settled_of_offer {head : String} {cost : Double}
    (better
      : ∀ known,
          labels.get? head = some known → known.settled = false ∧ cost.lt known.cost = true)
    : ¬ Settled labels head := by
  intro settled
  obtain ⟨label, found, final⟩ := settled
  rw [(better label found).1] at final
  cases final

/-- An offer refines the labels: it touches no settled key. -/
theorem refines_offer (parent head : String) (cost : Double) (labels : Labels)
    : Refines labels (offer parent head cost labels) := by
  rcases offer_cases parent head cost labels with ⟨same, _⟩ | ⟨changed, better⟩
  · rw [same]
    exact .refl labels
  · rw [changed]
    have unsettled := not_settled_of_offer better
    refine ⟨?_, ?_⟩
    · intro key label final
      by_cases hk : key = head
      · subst hk
        simp only [KeyMap.get?_insert, if_true]
        constructor
        · rintro ⟨rfl⟩
          cases final
        · intro found
          exact (unsettled ⟨label, found, final⟩).elim
      · simp [hk]
    · intro key present
      by_cases hk : key = head <;> simp_all [KeyMap.contains_iff]

theorem contains_offer (parent head : String) (cost : Double) (labels : Labels)
    : (offer parent head cost labels).contains head = true := by
  rcases offer_cases parent head cost labels with ⟨same, known, found, _⟩ | ⟨changed, _⟩
  · rw [same]
    exact KeyMap.contains_iff.mpr ⟨known, found⟩
  · simp [changed, KeyMap.contains_iff]

-----------------------------------------------------------------------------------------
-- The invariant of the search
-----------------------------------------------------------------------------------------

/-- The labels form a tree of settled parents: the seed is the only key without a parent, a
parent is settled and has an edge to its child, and the edges lead from the seed to every
labelled key. Until the first round the seed is the only key.
-/
structure Explored (graph : Graph) (seed : String) (labels : Labels) : Prop where
  root : ∃ label, labels.get? seed = some label ∧ label.parent = none
  begun : Settled labels seed ∨ ∀ key, labels.contains key = true → key = seed
  parented
    : ∀ key label,
        labels.get? key = some label
        → key ≠ seed
        → ∃ parent,
            label.parent = some parent ∧ graph.Adjacent parent key ∧ Settled labels parent
  reached : ∀ key, labels.contains key = true → graph.Reaches seed key

/-- The seed's label is the one without a parent. -/
theorem Explored.ne_seed {key parent : String} {label : Label}
    (explored : Explored graph seed labels) (found : labels.get? key = some label)
    (named : label.parent = some parent)
    : key ≠ seed := by
  intro same
  obtain ⟨root, rooted, orphan⟩ := explored.root
  rw [same, rooted] at found
  obtain rfl := Option.some.inj found
  rw [orphan] at named
  cases named

/-- The heads of the settled keys' edges are labelled. -/
def HeadsLabelled (graph : Graph) (labels : Labels) : Prop :=
  ∀ tail head, Settled labels tail → graph.Adjacent tail head → labels.contains head = true

/-- An offer along an edge from a settled key keeps the tree of parents; the seed is settled
by then, so no offer gives it a parent.
-/
theorem Explored.offer {parent head : String} (explored : Explored graph seed labels)
    (begun : Settled labels seed) (settled : Settled labels parent)
    (edge : graph.Adjacent parent head) (cost : Double)
    : Explored graph seed (offer parent head cost labels) := by
  have refines := refines_offer parent head cost labels
  have present : labels.contains parent = true :=
    KeyMap.contains_iff.mpr (settled.imp fun _ found => found.1)
  rcases offer_cases parent head cost labels with ⟨same, _⟩ | ⟨changed, better⟩
  · exact same.symm ▸ explored
  · have unsettled := not_settled_of_offer better
    have notSeed : head ≠ seed := fun same => unsettled (same ▸ begun)
    refine ⟨?_, .inl (refines.settled_iff.mpr begun), ?_, ?_⟩
    · simpa [changed, notSeed.symm] using explored.root
    · intro key label found differs
      by_cases hk : key = head
      · subst hk
        rw [changed, KeyMap.get?_insert, if_pos rfl] at found
        obtain rfl := Option.some.inj found
        exact ⟨parent, rfl, edge, refines.settled_iff.mpr settled⟩
      · rw [changed, KeyMap.get?_insert, if_neg hk] at found
        obtain ⟨ancestor, hp, adjacent, final⟩ := explored.parented key label found differs
        exact ⟨ancestor, hp, adjacent, refines.settled_iff.mpr final⟩
    · intro key labelled
      by_cases hk : key = head
      · exact hk ▸ (explored.reached parent present).tail edge
      · refine explored.reached key ?_
        simpa [changed, hk, KeyMap.contains_iff] using labelled

/-- The offers to the heads of a settled key's edges refine the labels, keep the tree of
parents and label every head, by induction on the heads.
-/
theorem Explored.offers {parent : String} (map : WeightMap) (cost : Double)
    (heads : List (String × Weight)) (explored : Explored graph seed labels)
    (begun : Settled labels seed) (settled : Settled labels parent)
    (edges : ∀ entry ∈ heads, graph.Adjacent parent entry.1)
    : let result := heads.foldl
        (fun labels (head, weight) => Graph.offer parent head (cost + map.cost weight) labels)
        labels
      Explored graph seed result
      ∧ Refines labels result
      ∧ ∀ entry ∈ heads, result.contains entry.1 = true := by
  induction heads generalizing labels with
  | nil => exact ⟨explored, .refl labels, by simp⟩
  | cons entry rest ih =>
      obtain ⟨head, weight⟩ := entry
      have refines := refines_offer parent head (cost + map.cost weight) labels
      have edge : graph.Adjacent parent head := edges (head, weight) (by simp)
      obtain ⟨kept, later, labelled⟩ :=
        ih (explored.offer begun settled edge (cost + map.cost weight))
          (refines.settled_iff.mpr begun) (refines.settled_iff.mpr settled)
          (fun entry member => edges entry (List.mem_cons_of_mem _ member))
      refine ⟨kept, refines.trans later, ?_⟩
      intro entry member
      rcases List.mem_cons.mp member with rfl | member
      · exact later.keeps head (contains_offer parent head _ labels)
      · exact labelled entry member

-----------------------------------------------------------------------------------------
-- Rounds
-----------------------------------------------------------------------------------------

theorem get?_settle (labels : Labels) (key other : String)
    : (settle key labels).get? other
      = if other = key then (labels.get? key).map fun label => { label with settled := true }
        else labels.get? other := by
  unfold settle
  cases found : labels.get? key with
  | none => by_cases ho : other = key <;> simp [ho, found]
  | some label => simp

/-- After settling, the settled keys are the earlier ones and the key itself. -/
theorem settled_settle_iff {key other : String} (present : labels.contains key = true)
    : Settled (settle key labels) other ↔ other = key ∨ Settled labels other := by
  obtain ⟨label, found⟩ := KeyMap.contains_iff.mp present
  by_cases ho : other = key <;> simp [Settled, get?_settle, ho, found]

theorem contains_settle_iff {key other : String}
    : (settle key labels).contains other = true ↔ labels.contains other = true := by
  by_cases ho : other = key <;> simp [KeyMap.contains_iff, get?_settle, ho]

/-- Settling a labelled key keeps the tree of parents. The first key settled is the seed,
since no other is labelled then.
-/
theorem Explored.settle {key : String} (explored : Explored graph seed labels)
    (present : labels.contains key = true)
    : Explored graph seed (settle key labels) ∧ Settled (settle key labels) seed := by
  have begun : Settled (Graph.settle key labels) seed := by
    rw [settled_settle_iff present]
    exact explored.begun.elim .inr fun only => .inl (only key present).symm
  refine ⟨⟨?_, .inl begun, ?_, ?_⟩, begun⟩
  · obtain ⟨label, found, orphan⟩ := explored.root
    by_cases hs : seed = key
    · subst hs
      exact ⟨{ label with settled := true }, by simp [get?_settle, found], orphan⟩
    · exact ⟨label, by simp [get?_settle, hs, found], orphan⟩
  · intro other label found differs
    have old : ∃ earlier, labels.get? other = some earlier ∧ earlier.parent = label.parent := by
      by_cases ho : other = key
      · subst ho
        rw [get?_settle, if_pos rfl] at found
        obtain ⟨earlier, he, rfl⟩ := Option.map_eq_some_iff.mp found
        exact ⟨earlier, he, rfl⟩
      · exact ⟨label, by simpa [get?_settle, ho] using found, rfl⟩
    obtain ⟨earlier, he, same⟩ := old
    obtain ⟨parent, hp, edge, final⟩ := explored.parented other earlier he differs
    exact ⟨parent, same ▸ hp, edge, (settled_settle_iff present).mpr (.inr final)⟩
  · intro other labelled
    exact explored.reached other (contains_settle_iff.mp labelled)

/-- One round keeps the tree of parents and settles its key besides the earlier ones. The
heads of all settled keys are labelled after it if they were before.
-/
theorem Explored.settleNext {key : String} (map : WeightMap) (cost : Double)
    (explored : Explored graph seed labels) (present : labels.contains key = true)
    : Explored graph seed (settleNext graph map key cost labels)
      ∧ (∀ other,
          Settled (settleNext graph map key cost labels) other
          ↔ other = key ∨ Settled labels other)
      ∧ (HeadsLabelled graph labels
          → HeadsLabelled graph (settleNext graph map key cost labels)) := by
  obtain ⟨settledTree, begun⟩ := explored.settle present
  have final : Settled (Graph.settle key labels) key := (settled_settle_iff present).mpr (.inl rfl)
  obtain ⟨kept, refines, labelled⟩ :=
    settledTree.offers map cost (graph.neighbors key) begun final
      (fun entry member => ⟨entry.2, mem_neighbors.mp member⟩)
  refine ⟨kept, fun other => refines.settled_iff.trans (settled_settle_iff present), ?_⟩
  intro closed tail head settled edge
  rcases (settled_settle_iff present).mp (refines.settled_iff.mp settled) with rfl | earlier
  · obtain ⟨weight, found⟩ := edge
    exact labelled (head, weight) (mem_neighbors.mpr found)
  · exact refines.keeps head (contains_settle_iff.mpr (closed tail head earlier edge))

-----------------------------------------------------------------------------------------
-- The whole search
-----------------------------------------------------------------------------------------

/-- A key that edges lead to from the seed is the seed or a key of the graph. -/
theorem Reaches.mem_keys {key : String} (reached : graph.Reaches seed key)
    : key = seed ∨ key ∈ graph.keys := by
  cases reached with
  | refl => exact .inl rfl
  | tail _ edge => exact .inr (ends_mem_keys edge.choose_spec).2

/-- The keys that the search can still settle. -/
def openKeys (graph : Graph) (seed : String) (labels : Labels) : Finset String :=
  (insert seed graph.keys.toFinset).filter fun key => ¬ Settled labels key

/-- No more keys can be settled than the graph has, the seed added. -/
theorem card_openKeys_le (graph : Graph) (seed : String) (labels : Labels)
    : (openKeys graph seed labels).card ≤ graph.keys.length + 1 :=
  calc
    (openKeys graph seed labels).card
    _ ≤ (insert seed graph.keys.toFinset).card := Finset.card_le_card (Finset.filter_subset _ _)
    _ ≤ graph.keys.toFinset.card + 1 := Finset.card_insert_le _ _
    _ ≤ graph.keys.length + 1 := Nat.succ_le_succ (List.toFinset_card_le _)

/-- The search keeps the tree of parents, and when it ends no labelled key is open: each
round takes one key from those that can still be settled. Induction on the rounds.
-/
theorem Explored.search {rounds : Nat} (explored : Explored graph seed labels)
    (closed : HeadsLabelled graph labels) (enough : (openKeys graph seed labels).card ≤ rounds)
    : Explored graph seed (search graph map rounds labels)
      ∧ HeadsLabelled graph (search graph map rounds labels)
      ∧ nextOpen (search graph map rounds labels) = none := by
  induction rounds generalizing labels with
  | zero =>
      refine ⟨explored, closed, ?_⟩
      cases next : nextOpen labels with
      | none => simp only [Graph.search, next]
      | some entry =>
          obtain ⟨label, found, unsettled, _⟩ := nextOpen_eq_some next
          -- no round is left, and an open key would need one
          have none : openKeys graph seed labels = ∅ := by simpa using enough
          have member : entry.1 ∈ openKeys graph seed labels := by
            have reached := explored.reached entry.1 (KeyMap.contains_iff.mpr ⟨label, found⟩)
            simpa [openKeys, Settled, found, unsettled] using reached.mem_keys
          simp [none] at member
  | succ rounds ih =>
      cases next : nextOpen labels with
      | none =>
          simp only [Graph.search, next]
          exact ⟨explored, closed, trivial⟩
      | some entry =>
          obtain ⟨key, cost⟩ := entry
          obtain ⟨label, found, unsettled, _⟩ := nextOpen_eq_some next
          have present : labels.contains key = true := KeyMap.contains_iff.mpr ⟨label, found⟩
          obtain ⟨kept, settled, labelled⟩ :=
            explored.settleNext map cost present
          have fewer : openKeys graph seed (Graph.settleNext graph map key cost labels)
              ⊂ openKeys graph seed labels := by
            refine Finset.ssubset_iff_of_subset ?_ |>.mpr ⟨key, ?_, ?_⟩
            · intro other member
              simp only [openKeys, Finset.mem_filter, settled, not_or] at member ⊢
              exact ⟨member.1, member.2.2⟩
            · have reached := explored.reached key present
              simpa [openKeys, Settled, found, unsettled] using reached.mem_keys
            · simp [openKeys, settled]
          have less := Finset.card_lt_card fewer
          simp only [Graph.search, next]
          exact ih kept (labelled closed) (by omega)

/-- The labels before the first round: the seed at no cost. -/
def startLabels (seed : String) : Labels :=
  KeyMap.empty.insert seed ⟨.zero false, none, false⟩

theorem get?_startLabels {key : String} {label : Label}
    (found : (startLabels seed).get? key = some label)
    : key = seed ∧ label = ⟨.zero false, none, false⟩ := by
  rw [startLabels, KeyMap.get?_insert] at found
  split at found
  · next same => exact ⟨same, (Option.some.inj found).symm⟩
  · cases found

theorem not_settled_startLabels (key : String) : ¬ Settled (startLabels seed) key := by
  intro settled
  obtain ⟨label, found, final⟩ := settled
  rw [(get?_startLabels found).2] at final
  cases final

theorem explored_startLabels (graph : Graph) (seed : String)
    : Explored graph seed (startLabels seed) := by
  have only (key : String) (present : (startLabels seed).contains key = true) : key = seed := by
    obtain ⟨label, found⟩ := KeyMap.contains_iff.mp present
    exact (get?_startLabels found).1
  refine ⟨⟨⟨.zero false, none, false⟩, by simp [startLabels], rfl⟩, .inr only, ?_, ?_⟩
  · intro key label found differs
    exact (differs (get?_startLabels found).1).elim
  · intro key present
    exact only key present ▸ .refl

/-- The labels of the whole search form a tree of settled parents, with every head of theirs
among them and no key open.
-/
theorem explored_pathLabels (graph : Graph) (map : WeightMap) (seed : String)
    : Explored graph seed (graph.pathLabels map seed)
      ∧ HeadsLabelled graph (graph.pathLabels map seed)
      ∧ nextOpen (graph.pathLabels map seed) = none := by
  refine (explored_startLabels graph seed).search ?_ (card_openKeys_le graph seed _)
  intro tail head settled _
  exact absurd settled (not_settled_startLabels tail)

/-- The search labels exactly the keys that edges lead to from the seed. -/
theorem contains_pathLabels_iff (map : WeightMap) {key : String}
    : (graph.pathLabels map seed).contains key = true ↔ graph.Reaches seed key := by
  obtain ⟨explored, closed, done⟩ := explored_pathLabels graph map seed
  refine ⟨explored.reached key, fun reached => ?_⟩
  induction reached with
  | refl => exact KeyMap.contains_iff.mpr (explored.root.imp fun _ found => found.1)
  | tail _ edge ih =>
      obtain ⟨label, found⟩ := KeyMap.contains_iff.mp ih
      exact closed _ _ ⟨label, found, settled_of_nextOpen_eq_none done found⟩ edge

/-- The search settles every key that edges lead to from the seed. -/
theorem settled_pathLabels (map : WeightMap) {key : String} (reached : graph.Reaches seed key)
    : Settled (graph.pathLabels map seed) key := by
  obtain ⟨label, found⟩ := KeyMap.contains_iff.mp ((contains_pathLabels_iff map).mpr reached)
  have done := (explored_pathLabels graph map seed).2.2
  exact ⟨label, found, settled_of_nextOpen_eq_none done found⟩

end GraphShell.Graph
