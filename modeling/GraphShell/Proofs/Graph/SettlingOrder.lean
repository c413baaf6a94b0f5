import GraphShell.Proofs.Graph.PathCosts

/-! The order in which a search settles its keys. It is the order of costs, and of keys where costs
are equal, among the keys whose parents are settled already; and a key's parent is the first
settled of those that offer it as little.
-/

namespace GraphShell.Graph

open Binary

variable {graph : Graph} {map : WeightMap} {seed key head parent : String} {labels : Labels}
  {origin label : Label} {weight : Weight} {cost : Double} {order : List String}

-----------------------------------------------------------------------------------------
-- The choice among equal costs
-----------------------------------------------------------------------------------------

/-- The first pair costs less, or the same and has the smaller key. -/
def Earlier (cost : Double) (key : String) (cost' : Double) (key' : String) : Prop :=
  cost.lt cost' = true ∨ cost = cost' ∧ key < key'

/-- The next key comes before every other open key, in the order of costs and keys. -/
theorem earlier_of_nextOpen (priced : Priced graph map labels)
    (next : nextOpen labels = some (key, cost)) {other : String}
    (found : labels.get? other = some label) (unsettled : label.settled = false)
    (differs : other ≠ key)
    : Earlier cost key label.cost other := by
  obtain ⟨known, stored, _, rfl⟩ := nextOpen_eq_some next
  obtain ⟨entry, least, same⟩ := Option.map_eq_some_iff.mp next
  obtain ⟨rfl, costs⟩ := Prod.mk.inj same
  obtain ⟨before, behind, parts, above, atMost⟩ := exists_split_of_leastBy least
  have sorted := labels.sorted.filter fun entry => !entry.2.settled
  have listed : (other, label) ∈ labels.entries.filter fun entry => !entry.2.settled := by
    simp [KeyMap.get?_eq_some_iff.mp found, unsettled]
  have first := priced.unsigned entry.1 known stored
  have second := priced.unsigned other label found
  rw [parts] at sorted listed
  rw [costs, first.rank_eq] at above atMost
  rcases List.mem_append.mp listed with front | rest
  · have less := above _ front
    rw [second.rank_eq] at less
    exact .inl ((first.lt_iff second).mpr (Int.ofNat_lt.mp less))
  · rcases List.mem_cons.mp rest with rfl | back
    · exact absurd rfl differs
    · have low := atMost _ back
      rw [second.rank_eq] at low
      have smaller : entry.1 < other :=
        (List.pairwise_cons.mp (List.pairwise_append.mp sorted).2.1).1 _ back
      rcases Nat.lt_or_eq_of_le (Int.ofNat_le.mp low) with less | equal
      · exact .inl ((first.lt_iff second).mpr less)
      · exact .inr ⟨first.eq_of_magnitude_eq second equal, smaller⟩

-----------------------------------------------------------------------------------------
-- The order of the rounds
-----------------------------------------------------------------------------------------

/-- The key is the seed, or the label hangs on one of the keys. -/
def Offered (seed : String) (keys : List String) (key : String) (label : Label) : Prop :=
  key = seed ∨ ∃ parent ∈ keys, label.parent = some parent

/-- The tail offers the head, along an edge, exactly what the label costs. -/
def Matches (graph : Graph) (map : WeightMap) (labels : Labels) (tail head : String)
    (label : Label)
    : Prop :=
  ∃ origin weight,
    labels.get? tail = some origin
    ∧ graph.weight? tail head = some weight
    ∧ label.cost = origin.cost + map.cost weight

/-- The settled keys in the order of their rounds. Each of them is the earliest of the keys that
those in front of it can offer a path, and none of the keys in front of a parent offers the child
as little as the parent does.
-/
structure Settling (graph : Graph) (map : WeightMap) (seed : String) (labels : Labels)
    (order : List String)
    : Prop where
  nodup : order.Nodup
  members : ∀ key, key ∈ order ↔ Settled labels key
  chosen
    : ∀ before key label,
        before ++ [key] <+: order
        → labels.get? key = some label
        → Offered seed before key label
          ∧ ∀ other rival,
              other ∉ before ++ [key]
              → labels.get? other = some rival
              → Offered seed before other rival
              → Earlier label.cost key rival.cost other
  earliest
    : ∀ before parent head label,
        before ++ [parent] <+: order
        → labels.get? head = some label
        → label.parent = some parent
        → ∀ tail ∈ before, ¬ Matches graph map labels tail head label

/-- No edge from one of the keys offers less than its head costs. -/
def RelaxedFrom (graph : Graph) (map : WeightMap) (keys : List String) (labels : Labels) : Prop :=
  ∀ tail ∈ keys, ∀ head origin weight,
    labels.get? tail = some origin
    → graph.weight? tail head = some weight
    → Within labels head (origin.cost + map.cost weight)

/-- What stands right behind others in a longer order is its new key, or stood there before. -/
theorem prefix_append_singleton_cases {before : List String} {last : String}
    (front : before ++ [key] <+: order ++ [last])
    : before = order ∧ key = last ∨ before ++ [key] <+: order := by
  rcases List.prefix_concat_iff.mp front with same | shorter
  · exact .inl (by simpa using same)
  · exact .inr shorter

theorem last_not_mem_front {before : List String} {last : String}
    (distinct : (order ++ [last]).Nodup) (front : before ++ [key] <+: order ++ [last])
    : last ∉ before := by
  have absent : last ∉ order := by
    intro member
    exact (List.nodup_append.mp distinct).2.2 last member last (by simp) rfl
  rcases prefix_append_singleton_cases front with ⟨rfl, _⟩ | shorter
  · exact absent
  · intro member
    exact absent (shorter.subset (List.mem_append_left _ member))

theorem Settling.not_mem_of_open (settling : Settling graph map seed labels order)
    (found : labels.get? key = some label) (unsettled : label.settled = false)
    : key ∉ order := by
  intro member
  obtain ⟨known, stored, final⟩ := (settling.members key).mp member
  obtain rfl := Option.some.inj (found.symm.trans stored)
  rw [unsettled] at final
  cases final

/-- The next key is the seed or hangs on a settled key, and it is the earliest of all open keys. -/
theorem Settling.chosen_next (settling : Settling graph map seed labels order)
    (explored : Explored graph seed labels) (priced : Priced graph map labels)
    (next : nextOpen labels = some (key, cost)) (found : labels.get? key = some label)
    : Offered seed order key label
      ∧ ∀ other rival,
          other ∉ order ++ [key]
          → labels.get? other = some rival
          → Earlier label.cost key rival.cost other := by
  obtain ⟨known, stored, _, rfl⟩ := nextOpen_eq_some next
  obtain rfl := Option.some.inj (stored.symm.trans found)
  refine ⟨?_, ?_⟩
  · by_cases atSeed : key = seed
    · exact .inl atSeed
    · obtain ⟨parent, named, _, final⟩ := explored.parented key known stored atSeed
      exact .inr ⟨parent, (settling.members parent).mpr final, named⟩
  · intro other rival behind labelled
    rw [List.mem_append, not_or, settling.members, List.mem_singleton] at behind
    have isOpen : rival.settled = false := by
      refine Bool.eq_false_iff.mpr ?_
      intro final
      exact behind.1 ⟨rival, labelled, final⟩
    exact earlier_of_nextOpen priced next labelled isOpen behind.2

/-- The key that a round settles is the last of the order. It is no parent so far. -/
theorem Settling.settle (settling : Settling graph map seed labels order)
    (explored : Explored graph seed labels) (priced : Priced graph map labels)
    (next : nextOpen labels = some (key, cost))
    : Settling graph map seed (settle key labels) (order ++ [key]) := by
  obtain ⟨known, stored, unsettled, _⟩ := nextOpen_eq_some next
  have fresh : key ∉ order := settling.not_mem_of_open stored unsettled
  refine ⟨?_, ?_, ?_, ?_⟩
  · simpa using settling.nodup.concat fresh
  · intro other
    have present : labels.contains key = true := KeyMap.contains_iff.mpr ⟨known, stored⟩
    rw [List.mem_append, List.mem_singleton, settling.members, settled_settle_iff present, or_comm]
  · intro before chosen label front found
    obtain ⟨earlier, old, costs, parents, _⟩ := exists_of_get?_settle found
    have least : Offered seed before chosen earlier
        ∧ ∀ other rival,
            other ∉ before ++ [chosen]
            → labels.get? other = some rival
            → Offered seed before other rival
            → Earlier earlier.cost chosen rival.cost other := by
      rcases prefix_append_singleton_cases front with ⟨rfl, rfl⟩ | shorter
      · obtain ⟨offered, least⟩ := settling.chosen_next explored priced next old
        exact ⟨offered, fun other rival behind labelled _ => least other rival behind labelled⟩
      · exact settling.chosen before chosen earlier shorter old
    rw [Offered, parents, costs]
    refine ⟨least.1, ?_⟩
    intro other rival behind labelled given
    obtain ⟨rival', old', costs', parents', _⟩ := exists_of_get?_settle labelled
    rw [Offered, parents'] at given
    exact costs' ▸ least.2 other rival' behind old' given
  · intro before parent head label front found named tail member tied
    obtain ⟨earlier, old, costs, parents, _⟩ := exists_of_get?_settle found
    rw [parents] at named
    obtain ⟨parent', named', _, final⟩ :=
      explored.parented head earlier old (explored.ne_seed old named)
    obtain rfl := Option.some.inj (named.symm.trans named')
    rcases prefix_append_singleton_cases front with ⟨_, rfl⟩ | shorter
    · exact fresh ((settling.members parent).mpr final)
    · obtain ⟨origin, weight, source, edge, sum⟩ := tied
      obtain ⟨origin', source', same, _⟩ := exists_of_get?_settle source
      apply settling.earliest before parent head earlier shorter old named tail member
      exact ⟨origin', weight, source', edge, by rw [← costs, ← same, sum]⟩

/-- A better offer costs less than anything that the relaxed keys offer the head. -/
theorem RelaxedFrom.not_matches {tail : String} {better : Label}
    (relaxed : RelaxedFrom graph map order labels) (priced : Priced graph map labels)
    (unsigned : better.cost.Unsigned) (member : tail ∈ order)
    (less : ∀ known, labels.get? head = some known → better.cost.lt known.cost = true)
    : ¬ Matches graph map labels tail head better := by
  intro tied
  obtain ⟨origin, weight, found, edge, sum⟩ := tied
  obtain ⟨label, labelled, low⟩ := relaxed tail member head origin weight found edge
  have strict := (unsigned.lt_iff (priced.unsigned head label labelled)).mp (less label labelled)
  rw [← sum] at low
  exact Nat.not_le.mpr strict low

/-- What a settled key offers leaves the order alone. A label that takes the offer hangs on the last
key, which no key is behind, and it costs less than any key in front of the last one offers.
-/
theorem Settling.offer (settling : Settling graph map seed labels (order ++ [parent]))
    (offering : Offering graph map parent origin labels) (begun : Settled labels seed)
    (relaxed : RelaxedFrom graph map order labels) (head : String) (weight : Weight)
    : Settling graph map seed
        (offer parent head (origin.cost + map.cost weight) labels) (order ++ [parent]) := by
  have refines := refines_offer parent head (origin.cost + map.cost weight) labels
  rcases offer_cases parent head (origin.cost + map.cost weight) labels with
    ⟨same, _⟩ | ⟨changed, better⟩
  · rw [same]
    exact settling
  · rw [changed] at refines ⊢
    have unsettled := not_settled_of_offer better
    have frozen (key : String) (label : Label) (member : key ∈ order ++ [parent])
        (found
          : (labels.insert head ⟨origin.cost + map.cost weight, some parent, false⟩).get? key
            = some label)
        : labels.get? key = some label := by
      obtain ⟨known, stored, final⟩ := (settling.members key).mp member
      have kept := (refines.settled key known final).mpr stored
      rwa [← Option.some.inj (kept.symm.trans found)]
    refine ⟨settling.nodup, ?_, ?_, ?_⟩
    · intro key
      rw [refines.settled_iff, settling.members]
    · intro before key label front found
      have member : key ∈ order ++ [parent] := front.subset (by simp)
      have known := frozen key label member found
      obtain ⟨offered, least⟩ := settling.chosen before key label front known
      refine ⟨offered, ?_⟩
      intro other rival behind labelled given
      rcases get?_insert_cases labelled with ⟨rfl, rfl⟩ | old
      · rcases given with rfl | ⟨_, front', named⟩
        · exact absurd begun unsettled
        · obtain rfl := Option.some.inj named
          exact absurd front' (last_not_mem_front settling.nodup front)
      · exact least other rival behind old given
    · intro before ancestor key label front found named tail member tied
      obtain ⟨source, weight', stored, edge', sum⟩ := tied
      have listed : tail ∈ order ++ [parent] := front.subset (List.mem_append_left _ member)
      have tied : Matches graph map labels tail key label :=
        ⟨source, weight', frozen tail source listed stored, edge', sum⟩
      rcases get?_insert_cases found with ⟨rfl, rfl⟩ | old
      · obtain rfl := Option.some.inj named
        have early : tail ∈ order := by
          refine (List.mem_append.mp listed).resolve_right ?_
          intro last
          obtain rfl := List.mem_singleton.mp last
          exact last_not_mem_front settling.nodup front member
        exact relaxed.not_matches offering.priced (offering.add_cost weight).1 early
          (fun known found => (better known found).2) tied
      · exact settling.earliest before ancestor key label front old named tail member tied

/-- The offers of a settled key leave the order alone, by induction on the heads. -/
theorem Settling.offers (settling : Settling graph map seed labels (order ++ [parent]))
    (offering : Offering graph map parent origin labels) (begun : Settled labels seed)
    (relaxed : RelaxedFrom graph map order labels) (heads : List (String × Weight))
    (edges : ∀ entry ∈ heads, graph.weight? parent entry.1 = some entry.2)
    : Settling graph map seed
        (heads.foldl
          (fun labels (head, weight) =>
            Graph.offer parent head (origin.cost + map.cost weight) labels)
          labels)
        (order ++ [parent]) := by
  induction heads generalizing labels with
  | nil => exact settling
  | cons entry rest ih =>
      obtain ⟨first, others⟩ := List.forall_mem_cons.mp edges
      have refines := refines_offer parent entry.1 (origin.cost + map.cost entry.2) labels
      obtain ⟨offered, cheaper, _⟩ := offering.offer first
      refine ih (settling.offer offering begun relaxed entry.1 entry.2) offered
        (refines.settled_iff.mpr begun) ?_ others
      intro tail member head source weight found edge
      obtain ⟨known, stored, final⟩ :=
        (settling.members tail).mp (List.mem_append_left _ member)
      have kept := (refines.settled tail known final).mpr stored
      obtain rfl := Option.some.inj (kept.symm.trans found)
      exact cheaper head _ (relaxed tail member head known weight stored edge)

/-- A round puts its key at the end of the order. -/
theorem Settling.settleNext (settling : Settling graph map seed labels order)
    (explored : Explored graph seed labels) (balanced : Balanced graph map labels)
    (next : nextOpen labels = some (key, cost))
    : Settling graph map seed (settleNext graph map key cost labels) (order ++ [key]) := by
  obtain ⟨known, stored, _, _⟩ := nextOpen_eq_some next
  have present : labels.contains key = true := KeyMap.contains_iff.mpr ⟨known, stored⟩
  obtain ⟨level, parted⟩ := balanced.parted
  obtain ⟨origin, offering, rfl⟩ := offering_settle balanced.priced parted next
  refine (settling.settle explored balanced.priced next).offers offering
    (explored.settle present).2 ?_ (graph.neighbors key) fun _ member => mem_neighbors.mp member
  intro tail member head source weight found edge
  obtain ⟨earlier, before, same, _, _⟩ := exists_of_get?_settle found
  obtain ⟨origin', stored', final⟩ := (settling.members tail).mp member
  obtain rfl := Option.some.inj (before.symm.trans stored')
  obtain ⟨label, labelled, low⟩ := balanced.relaxed tail head earlier weight before final edge
  obtain ⟨later, kept, still, _⟩ := exists_get?_settle key labelled
  exact ⟨later, kept, by rw [still, same]; exact low⟩

theorem settling_startLabels (graph : Graph) (map : WeightMap) (seed : String)
    : Settling graph map seed (startLabels seed) [] := by
  refine ⟨List.nodup_nil, ?_, ?_, ?_⟩
  · intro key
    simpa using not_settled_startLabels key
  · intro before key label front
    simp at front
  · intro before parent head label front
    simp at front

/-- The keys of the whole search have an order, as every round puts one more at its end. -/
theorem settling_pathLabels (graph : Graph) (map : WeightMap) (seed : String)
    : ∃ order, Settling graph map seed (graph.pathLabels map seed) order := by
  suffices all : Explored graph seed (graph.pathLabels map seed)
      ∧ Balanced graph map (graph.pathLabels map seed)
      ∧ ∃ order, Settling graph map seed (graph.pathLabels map seed) order from all.2.2
  apply search_keeps fun labels =>
    Explored graph seed labels
    ∧ Balanced graph map labels
    ∧ ∃ order, Settling graph map seed labels order
  · intro labels key cost next before
    obtain ⟨explored, balanced, order, settling⟩ := before
    obtain ⟨label, found, _, _⟩ := nextOpen_eq_some next
    have present : labels.contains key = true := KeyMap.contains_iff.mpr ⟨label, found⟩
    exact ⟨(explored.settleNext map cost present).1, balanced.settleNext next, order ++ [key],
      settling.settleNext explored balanced next⟩
  · exact ⟨explored_startLabels graph seed, balanced_startLabels graph map seed, [],
      settling_startLabels graph map seed⟩

end GraphShell.Graph
