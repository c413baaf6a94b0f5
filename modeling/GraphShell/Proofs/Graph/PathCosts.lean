import GraphShell.Proofs.Graph.Costs
import GraphShell.Proofs.Graph.Descent

/-! The costs of the labels. A label costs what its parent costs and the edge from there, and no
edge from a settled key offers less than its head costs, as keys are settled in the order of
their costs. Sums are rounded, so they are only known to keep this order.
-/

namespace GraphShell.Graph

open Binary

variable {graph : Graph} {map : WeightMap} {seed key head parent : String}
  {labels before after : Labels} {origin : Label} {weight : Weight} {cost : Double}

-----------------------------------------------------------------------------------------
-- Costs of labels
-----------------------------------------------------------------------------------------

/-- A label without a parent costs nothing, and any other one what its settled parent costs and
the edge from there.
-/
structure Priced (graph : Graph) (map : WeightMap) (labels : Labels) : Prop where
  unsigned : ∀ key label, labels.get? key = some label → label.cost.Unsigned
  free
    : ∀ key label,
        labels.get? key = some label → label.parent = none → label.cost = .zero false
  summed
    : ∀ key label parent,
        labels.get? key = some label
        → label.parent = some parent
        → ∃ origin weight,
            labels.get? parent = some origin
            ∧ origin.settled = true
            ∧ graph.weight? parent key = some weight
            ∧ label.cost = origin.cost + map.cost weight

/-- Settled keys cost at most the level, and open ones at least as much. -/
structure Parted (labels : Labels) (level : Double) : Prop where
  settled
    : ∀ key label,
        labels.get? key = some label
        → label.settled = true
        → label.cost.magnitude ≤ level.magnitude
  opened
    : ∀ key label,
        labels.get? key = some label
        → label.settled = false
        → level.magnitude ≤ label.cost.magnitude

/-- The key is labelled with at most the cost. -/
def Within (labels : Labels) (key : String) (cost : Double) : Prop :=
  ∃ label, labels.get? key = some label ∧ label.cost.magnitude ≤ cost.magnitude

/-- No edge from a settled key offers less than its head costs. -/
def Relaxed (graph : Graph) (map : WeightMap) (labels : Labels) : Prop :=
  ∀ tail head origin weight,
    labels.get? tail = some origin
    → origin.settled = true
    → graph.weight? tail head = some weight
    → Within labels head (origin.cost + map.cost weight)

/-- No key is lost, and none comes to cost more. -/
def Cheapens (before after : Labels) : Prop :=
  ∀ key cost, Within before key cost → Within after key cost

-----------------------------------------------------------------------------------------
-- Offers
-----------------------------------------------------------------------------------------

/-- While the edges of a key are offered, the key is settled, and its cost is the level between
the settled keys and the open ones.
-/
structure Offering (graph : Graph) (map : WeightMap) (parent : String) (origin : Label)
    (labels : Labels) : Prop where
  priced : Priced graph map labels
  found : labels.get? parent = some origin
  final : origin.settled = true
  parted : Parted labels origin.cost

/-- What the key offers along an edge costs no less than the key itself. -/
theorem Offering.add_cost (offering : Offering graph map parent origin labels) (weight : Weight)
    : (origin.cost + map.cost weight).Unsigned
      ∧ origin.cost.magnitude ≤ (origin.cost + map.cost weight).magnitude :=
  (offering.priced.unsigned parent origin offering.found).add (map.unsigned_cost weight)
    (map.isFinite_cost weight)

/-- A key that takes an offer gets its label, and every other key keeps its own. -/
theorem get?_insert_cases {new label : Label}
    (found : (labels.insert head new).get? key = some label)
    : key = head ∧ label = new ∨ labels.get? key = some label := by
  rw [KeyMap.get?_insert] at found
  split at found
  · next same => exact .inl ⟨same, (Option.some.inj found).symm⟩
  · exact .inr found

theorem get?_insert_of_settled {new label : Label} (unsettled : ¬ Settled labels head)
    (found : labels.get? key = some label) (final : label.settled = true)
    : (labels.insert head new).get? key = some label := by
  have apart : key ≠ head := by
    intro same
    exact unsettled ⟨label, same ▸ found, final⟩
  rw [KeyMap.get?_insert, if_neg apart, found]

/-- A key that takes an offer is priced by it. Labels rest on settled keys only, and these stay as
they are.
-/
theorem Offering.priced_insert (offering : Offering graph map parent origin labels)
    (edge : graph.weight? parent head = some weight) (unsettled : ¬ Settled labels head)
    : Priced graph map
        (labels.insert head ⟨origin.cost + map.cost weight, some parent, false⟩) := by
  refine ⟨?_, ?_, ?_⟩
  · intro key label found
    rcases get?_insert_cases found with ⟨rfl, rfl⟩ | old
    · exact (offering.add_cost weight).1
    · exact offering.priced.unsigned key label old
  · intro key label found orphan
    rcases get?_insert_cases found with ⟨rfl, rfl⟩ | old
    · cases orphan
    · exact offering.priced.free key label old orphan
  · intro key label source found named
    rcases get?_insert_cases found with ⟨rfl, rfl⟩ | old
    · obtain rfl := Option.some.inj named
      exact ⟨origin, weight, get?_insert_of_settled unsettled offering.found offering.final,
        offering.final, edge, rfl⟩
    · obtain ⟨other, weight, known, final, stored, sum⟩ :=
        offering.priced.summed key label source old named
      exact ⟨other, weight, get?_insert_of_settled unsettled known final, final, stored, sum⟩

theorem Offering.insert (offering : Offering graph map parent origin labels)
    (edge : graph.weight? parent head = some weight) (unsettled : ¬ Settled labels head)
    : Offering graph map parent origin
        (labels.insert head ⟨origin.cost + map.cost weight, some parent, false⟩) := by
  refine ⟨offering.priced_insert edge unsettled,
    get?_insert_of_settled unsettled offering.found offering.final, offering.final, ⟨?_, ?_⟩⟩
  · intro key label found final
    rcases get?_insert_cases found with ⟨rfl, rfl⟩ | old
    · cases final
    · exact offering.parted.settled key label old final
  · intro key label found isOpen
    rcases get?_insert_cases found with ⟨rfl, rfl⟩ | old
    · exact (offering.add_cost weight).2
    · exact offering.parted.opened key label old isOpen

/-- Offering an edge keeps the prices, makes no key cost more, and leaves its head with at most
the cost that was offered.
-/
theorem Offering.offer (offering : Offering graph map parent origin labels)
    (edge : graph.weight? parent head = some weight)
    : Offering graph map parent origin (offer parent head (origin.cost + map.cost weight) labels)
      ∧ Cheapens labels (offer parent head (origin.cost + map.cost weight) labels)
      ∧ Within (offer parent head (origin.cost + map.cost weight) labels) head
          (origin.cost + map.cost weight) := by
  obtain ⟨unsigned, beyond⟩ := offering.add_cost weight
  rcases offer_cases parent head (origin.cost + map.cost weight) labels
    with ⟨same, known, found, kept⟩ | ⟨changed, better⟩
  · rw [same]
    refine ⟨offering, fun _ _ within => within, known, found, ?_⟩
    rcases kept with final | dear
    · exact (offering.parted.settled head known found final).trans beyond
    · have order := unsigned.lt_iff (offering.priced.unsigned head known found)
      rw [dear] at order
      simpa using order
  · rw [changed]
    refine ⟨offering.insert edge (not_settled_of_offer better), ?_,
      ⟨origin.cost + map.cost weight, some parent, false⟩, ?_, Nat.le_refl _⟩
    · intro key limit within
      obtain ⟨label, found, low⟩ := within
      by_cases same : key = head
      · subst same
        have order := unsigned.lt_iff (offering.priced.unsigned key label found)
        have less := order.mp (better label found).2
        exact ⟨_, by rw [KeyMap.get?_insert, if_pos rfl], less.le.trans low⟩
      · exact ⟨label, by rw [KeyMap.get?_insert, if_neg same, found], low⟩
    · rw [KeyMap.get?_insert, if_pos rfl]

/-- Offering all edges of a key leaves each head with at most the cost that was offered to it, by
induction on the heads.
-/
theorem Offering.offers (offering : Offering graph map parent origin labels)
    (heads : List (String × Weight))
    (edges : ∀ entry ∈ heads, graph.weight? parent entry.1 = some entry.2)
    : let result := heads.foldl
        (fun labels (head, weight) =>
          Graph.offer parent head (origin.cost + map.cost weight) labels)
        labels
      Offering graph map parent origin result
      ∧ Cheapens labels result
      ∧ ∀ entry ∈ heads, Within result entry.1 (origin.cost + map.cost entry.2) := by
  induction heads generalizing labels with
  | nil => exact ⟨offering, fun _ _ within => within, nofun⟩
  | cons entry rest ih =>
      obtain ⟨first, others⟩ := List.forall_mem_cons.mp edges
      obtain ⟨offered, cheaper, within⟩ := offering.offer first
      obtain ⟨last, later, each⟩ := ih offered others
      refine ⟨last, fun key cost low => later key cost (cheaper key cost low), ?_⟩
      exact List.forall_mem_cons.mpr ⟨later _ _ within, each⟩

-----------------------------------------------------------------------------------------
-- Rounds
-----------------------------------------------------------------------------------------

/-- A key that is labelled after settling was labelled before, with the same cost and parent. -/
theorem exists_of_get?_settle {other : String} {label : Label}
    (found : (settle key labels).get? other = some label)
    : ∃ earlier,
        labels.get? other = some earlier
        ∧ label.cost = earlier.cost
        ∧ label.parent = earlier.parent
        ∧ (label.settled = true ↔ other = key ∨ earlier.settled = true) := by
  rw [get?_settle] at found
  split at found
  · next same =>
      obtain ⟨earlier, known, rfl⟩ := Option.map_eq_some_iff.mp found
      exact ⟨earlier, same ▸ known, rfl, rfl, by simp [same]⟩
  · next differs => exact ⟨label, found, rfl, rfl, by simp [differs]⟩

theorem exists_get?_settle (key : String) {other : String} {earlier : Label}
    (found : labels.get? other = some earlier)
    : ∃ label,
        (settle key labels).get? other = some label
        ∧ label.cost = earlier.cost
        ∧ (label.settled = true ↔ other = key ∨ earlier.settled = true) := by
  by_cases same : other = key
  · subst same
    exact ⟨{ earlier with settled := true }, by simp [get?_settle, found], rfl, by simp⟩
  · exact ⟨earlier, by simp [get?_settle, same, found], rfl, by simp [same]⟩

theorem Priced.settle (priced : Priced graph map labels) (key : String)
    : Priced graph map (settle key labels) := by
  refine ⟨?_, ?_, ?_⟩
  · intro other label found
    obtain ⟨earlier, known, cost, _⟩ := exists_of_get?_settle found
    exact cost ▸ priced.unsigned other earlier known
  · intro other label found orphan
    obtain ⟨earlier, known, cost, named, _⟩ := exists_of_get?_settle found
    exact cost.trans (priced.free other earlier known (named ▸ orphan))
  · intro other label parent found given
    obtain ⟨earlier, known, cost, named, _⟩ := exists_of_get?_settle found
    obtain ⟨source, weight, stored, final, edge, sum⟩ :=
      priced.summed other earlier parent known (named ▸ given)
    obtain ⟨later, kept, same, still⟩ := exists_get?_settle key stored
    exact ⟨later, weight, kept, still.mpr (.inr final), edge, by rw [cost, sum, same]⟩

/-- The next key costs least among the open ones. -/
theorem magnitude_le_of_nextOpen (priced : Priced graph map labels)
    (next : nextOpen labels = some (key, cost)) {other : String} {label : Label}
    (found : labels.get? other = some label) (unsettled : label.settled = false)
    : cost.magnitude ≤ label.cost.magnitude := by
  obtain ⟨chosen, known, _, rfl⟩ := nextOpen_eq_some next
  obtain ⟨entry, least, same⟩ := Option.map_eq_some_iff.mp next
  have listed : (other, label) ∈ labels.entries.filter fun entry => !entry.2.settled := by
    simp [KeyMap.get?_eq_some_iff.mp found, unsettled]
  have order := le_of_leastBy least listed
  rw [(Prod.mk.inj same).2, (priced.unsigned key chosen known).rank_eq,
    (priced.unsigned other label found).rank_eq] at order
  exact Int.ofNat_le.mp order

/-- Settling the next key makes its cost the level: it is no less than those of the keys settled
before, and no greater than those of the open keys.
-/
theorem offering_settle {level : Double} (priced : Priced graph map labels)
    (parted : Parted labels level) (next : nextOpen labels = some (key, cost))
    : ∃ origin, Offering graph map key origin (settle key labels) ∧ origin.cost = cost := by
  obtain ⟨chosen, known, unsettled, rfl⟩ := nextOpen_eq_some next
  have above := parted.opened key chosen known unsettled
  refine ⟨{ chosen with settled := true }, ⟨priced.settle key, ?_, rfl, ⟨?_, ?_⟩⟩, rfl⟩
  · simp [get?_settle, known]
  · intro other label found final
    obtain ⟨earlier, before, same, _, settled⟩ := exists_of_get?_settle found
    rw [same]
    rcases settled.mp final with rfl | final
    · rw [Option.some.inj (known.symm.trans before)]
    · exact (parted.settled other earlier before final).trans above
  · intro other label found isOpen
    obtain ⟨earlier, before, same, _, settled⟩ := exists_of_get?_settle found
    rw [isOpen] at settled
    rw [same]
    refine magnitude_le_of_nextOpen priced next before ?_
    simpa using mt (fun final => settled.mpr (.inr final)) Bool.false_ne_true

/-- The labels are priced, parted at some level, and relaxed. -/
structure Balanced (graph : Graph) (map : WeightMap) (labels : Labels) : Prop where
  priced : Priced graph map labels
  parted : ∃ level, Parted labels level
  relaxed : Relaxed graph map labels

/-- A round keeps the balance: the edges of its key are relaxed by what it offers, and those of
the keys settled before since no key comes to cost more.
-/
theorem Balanced.settleNext (balanced : Balanced graph map labels)
    (next : nextOpen labels = some (key, cost))
    : Balanced graph map (settleNext graph map key cost labels) := by
  obtain ⟨level, parted⟩ := balanced.parted
  obtain ⟨origin, offering, rfl⟩ := offering_settle balanced.priced parted next
  have refines := refines_settleNext graph map key origin.cost labels
  obtain ⟨offered, cheaper, each⟩ :=
    offering.offers (graph.neighbors key) fun _ member => mem_neighbors.mp member
  refine ⟨offered.priced, ⟨origin.cost, offered.parted⟩, ?_⟩
  intro tail head source weight found final edge
  have settled := (refines.settled tail source final).mp found
  obtain ⟨earlier, known, same, _, before⟩ := exists_of_get?_settle settled
  by_cases atKey : tail = key
  · subst atKey
    obtain rfl := Option.some.inj (settled.symm.trans offering.found)
    exact each (head, weight) (mem_neighbors.mpr edge)
  · have earlierFinal := (before.mp final).resolve_left atKey
    obtain ⟨label, labelled, low⟩ :=
      balanced.relaxed tail head earlier weight known earlierFinal edge
    obtain ⟨later, kept, still, _⟩ := exists_get?_settle key labelled
    exact cheaper head _ ⟨later, kept, by rw [still, same]; exact low⟩

theorem balanced_startLabels (graph : Graph) (map : WeightMap) (seed : String)
    : Balanced graph map (startLabels seed) := by
  refine ⟨⟨?_, ?_, ?_⟩, ⟨.zero false, ?_, ?_⟩, ?_⟩
  · intro key label found
    rw [(get?_startLabels found).2]
    exact Number.unsigned_zero
  · intro key label found _
    rw [(get?_startLabels found).2]
  · intro key label parent found named
    rw [(get?_startLabels found).2] at named
    cases named
  · intro key label found final
    exact absurd ⟨label, found, final⟩ (not_settled_startLabels key)
  · intro key label _ _
    exact Nat.zero_le _
  · intro tail _ origin _ found final _
    exact absurd ⟨origin, found, final⟩ (not_settled_startLabels tail)

/-- The labels of the whole search are balanced, as every round keeps the balance. -/
theorem balanced_pathLabels (graph : Graph) (map : WeightMap) (seed : String)
    : Balanced graph map (graph.pathLabels map seed) := by
  apply search_keeps (Balanced graph map)
  · intro labels key cost next balanced
    exact balanced.settleNext next
  · exact balanced_startLabels graph map seed

end GraphShell.Graph
