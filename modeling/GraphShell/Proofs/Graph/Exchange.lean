import GraphShell.Proofs.Graph.Costs
import GraphShell.Proofs.Graph.Growth
import Mathlib.Algebra.Order.BigOperators.Group.Finset

/-! No spanning tree costs less than the one that is grown: whichever edges join a component,
each edge taken can stand in for one of them that costs no less.
-/

namespace GraphShell.Graph

variable {graph : Graph} {map : WeightMap} {seed : String}

-----------------------------------------------------------------------------------------
-- Sets of edges
-----------------------------------------------------------------------------------------

/-- Edges of the set lead from the first key to the second, each taken in either direction. -/
def Connects (edges : Finset Edge) : String → String → Prop :=
  Relation.ReflTransGen fun first second =>
    ∃ edge ∈ edges,
      edge.tail = first ∧ edge.head = second ∨ edge.tail = second ∧ edge.head = first

variable {edges more : Finset Edge} {edge : Edge} {first second third : String}
  {inside : List String}

theorem Connects.of_mem (member : edge ∈ edges) : Connects edges edge.tail edge.head :=
  .single ⟨edge, member, .inl ⟨rfl, rfl⟩⟩

theorem Connects.symm (connects : Connects edges first second)
    : Connects edges second first := by
  induction connects with
  | refl => exact .refl
  | tail _ step ih =>
      obtain ⟨edge, member, ends⟩ := step
      exact .head ⟨edge, member, ends.symm⟩ ih

theorem Connects.trans (left : Connects edges first second)
    (right : Connects edges second third)
    : Connects edges first third :=
  Relation.ReflTransGen.trans left right

/-- What a set of edges connects is connected by any set that connects the ends of each edge,
by induction on the steps.
-/
theorem Connects.of_each (connects : Connects edges first second)
    (each : ∀ edge ∈ edges, Connects more edge.tail edge.head)
    : Connects more first second := by
  induction connects with
  | refl => exact .refl
  | tail _ step ih =>
      obtain ⟨edge, member, ⟨rfl, rfl⟩ | ⟨rfl, rfl⟩⟩ := step
      · exact ih.trans (each edge member)
      · exact ih.trans (each edge member).symm

theorem Connects.mono (connects : Connects edges first second) (subset : edges ⊆ more)
    : Connects more first second :=
  connects.of_each fun _ member => .of_mem (subset member)

/-- With one edge more, a connection is made without it or goes over it once, by induction on
the steps.
-/
theorem connects_insert (connects : Connects (insert edge edges) first second)
    : Connects edges first second
      ∨ Connects edges first edge.tail ∧ Connects edges edge.head second
      ∨ Connects edges first edge.head ∧ Connects edges edge.tail second := by
  induction connects with
  | refl => exact .inl .refl
  | tail _ step ih =>
      obtain ⟨other, member, ends⟩ := step
      rcases Finset.mem_insert.mp member with rfl | old
      · -- the last step goes over the edge
        rcases ends with ⟨rfl, rfl⟩ | ⟨rfl, rfl⟩
        · rcases ih with direct | ⟨before, -⟩ | ⟨before, -⟩
          · exact .inr (.inl ⟨direct, .refl⟩)
          · exact .inr (.inl ⟨before, .refl⟩)
          · exact .inl before
        · rcases ih with direct | ⟨before, -⟩ | ⟨before, -⟩
          · exact .inr (.inr ⟨direct, .refl⟩)
          · exact .inl before
          · exact .inr (.inr ⟨before, .refl⟩)
      · rcases ih with direct | ⟨before, behind⟩ | ⟨before, behind⟩
        · exact .inl (direct.tail ⟨other, old, ends⟩)
        · exact .inr (.inl ⟨before, behind.tail ⟨other, old, ends⟩⟩)
        · exact .inr (.inr ⟨before, behind.tail ⟨other, old, ends⟩⟩)

/-- A connection that leads out goes over a crossing edge, by induction on the steps. -/
theorem Connects.exists_crosses (connects : Connects edges first second)
    (inner : first ∈ inside) (outer : second ∉ inside)
    : ∃ edge ∈ edges, crosses inside edge = true := by
  induction connects with
  | refl => exact absurd inner outer
  | @tail middle last before step ih =>
      by_cases within : middle ∈ inside
      · obtain ⟨edge, member, ⟨rfl, rfl⟩ | ⟨rfl, rfl⟩⟩ := step
        · exact ⟨edge, member, by simp [crosses, within, outer]⟩
        · exact ⟨edge, member, by simp [crosses, within, outer]⟩
      · exact ih within

/-- Of the edges that lead out, a crossing one can be given up for any other way out: its ends
stay connected. By induction on the edges, leaving out what is not needed to lead out.
-/
theorem Connects.exists_exchange (connects : Connects edges first second)
    (inner : first ∈ inside) (outer : second ∉ inside)
    : ∃ edge ∈ edges,
        crosses inside edge = true
        ∧ ∀ more,
            edges.erase edge ⊆ more
            → Connects more first second
            → Connects more edge.tail edge.head := by
  induction edges using Finset.strongInduction with
  | H edges ih =>
      by_cases spare : ∃ edge ∈ edges, Connects (edges.erase edge) first second
      · obtain ⟨unneeded, listed, still⟩ := spare
        obtain ⟨edge, member, crossed, exchange⟩ :=
          ih (edges.erase unneeded) (Finset.erase_ssubset listed) still
        refine ⟨edge, Finset.mem_of_mem_erase member, crossed, ?_⟩
        intro more subset around
        refine exchange more ?_ around
        exact (Finset.erase_subset_erase edge (Finset.erase_subset unneeded edges)).trans subset
      · obtain ⟨edge, member, crossed⟩ := connects.exists_crosses inner outer
        refine ⟨edge, member, crossed, ?_⟩
        intro more subset around
        rw [← Finset.insert_erase member] at connects
        rcases connects_insert connects with direct | ⟨before, behind⟩ | ⟨before, behind⟩
        · exact absurd ⟨edge, member, direct⟩ spare
        · exact ((before.mono subset).symm.trans around).trans (behind.mono subset).symm
        · exact ((behind.mono subset).trans around.symm).trans (before.mono subset)

-----------------------------------------------------------------------------------------
-- The exchange
-----------------------------------------------------------------------------------------

/-- The edges are edges of the graph and join the component of the seed. -/
structure Joins (graph : Graph) (seed : String) (edges : Finset Edge) : Prop where
  stored : ∀ edge ∈ edges, edge ∈ graph.edges
  connects : ∀ key, graph.Linked seed key → Connects edges seed key

/-- What the searches count for a set of edges. -/
def charge (map : WeightMap) (edges : Finset Edge) : Nat :=
  ∑ edge ∈ edges, map.charge edge.weight

theorem charge_insert_le (map : WeightMap) (edge : Edge) (edges : Finset Edge)
    : charge map (insert edge edges) ≤ map.charge edge.weight + charge map edges := by
  unfold charge
  by_cases member : edge ∈ edges
  · rw [Finset.insert_eq_of_mem member]
    exact Nat.le_add_left _ _
  · exact (Finset.sum_insert member).le

theorem charge_le_of_crossing {other : Edge} (next : graph.crossing map inside = some edge)
    (stored : other ∈ graph.edges) (crossed : crosses inside other = true)
    : map.charge edge.weight ≤ map.charge other.weight := by
  have least := le_of_leastBy next (List.mem_filter.mpr ⟨stored, crossed⟩)
  exact map.rank_cost_le_iff.mp least

/-- The edge taken next joins what is inside with a key of the component outside. -/
theorem exists_ends_of_crossing {taken : List Edge} (grown : Grown graph seed inside taken)
    (next : graph.crossing map inside = some edge)
    : ∃ inner outer,
        inner ∈ inside
        ∧ outer ∉ inside
        ∧ graph.Linked seed outer
        ∧ ∀ edges, edge ∈ edges → Connects edges inner outer := by
  obtain ⟨stored, crossed⟩ := crossing_eq_some next
  obtain ⟨outside, ends⟩ := crosses_iff.mp crossed
  have adjacent : graph.Adjacent edge.tail edge.head := ⟨edge.weight, mem_edges.mp stored⟩
  rcases ends with ⟨inner, same⟩ | ⟨inner, same⟩
  · exact ⟨edge.tail, edge.head, inner, same ▸ outside,
      (grown.linked _ inner).tail (.inl adjacent), fun _ member => .of_mem member⟩
  · exact ⟨edge.head, edge.tail, inner, same ▸ outside,
      (grown.linked _ inner).tail (.inr adjacent), fun _ member => (Connects.of_mem member).symm⟩

/-- An edge can be replaced by another one if its ends stay connected. -/
theorem Joins.replace {old : Edge} (joins : Joins graph seed edges) (stored : edge ∈ graph.edges)
    (around : Connects (insert edge (edges.erase old)) old.tail old.head)
    : Joins graph seed (insert edge (edges.erase old)) where
  stored := by
    intro other listed
    rcases Finset.mem_insert.mp listed with rfl | listed
    · exact stored
    · exact joins.stored other (Finset.mem_of_mem_erase listed)
  connects := by
    intro key linked
    refine (joins.connects key linked).of_each ?_
    intro other listed
    by_cases same : other = old
    · exact same ▸ around
    · exact .of_mem (Finset.mem_insert_of_mem (Finset.mem_erase.mpr ⟨same, listed⟩))

/-- The edge taken next can stand in for an edge of any set that joins the component and holds
the edges taken before.
-/
theorem Joins.exchange {taken : List Edge} (joins : Joins graph seed edges)
    (grown : Grown graph seed inside taken) (held : taken.toFinset ⊆ edges)
    (next : graph.crossing map inside = some edge)
    : ∃ more,
        Joins graph seed more
        ∧ (edge :: taken).toFinset ⊆ more
        ∧ charge map more ≤ charge map edges := by
  obtain ⟨inner, outer, within, without, linked, joined⟩ := exists_ends_of_crossing grown next
  have leads : Connects edges inner outer :=
    (joins.connects inner (grown.linked inner within)).symm.trans (joins.connects outer linked)
  obtain ⟨old, member, oldCrossed, exchange⟩ := leads.exists_exchange within without
  have kept : edges.erase old ⊆ insert edge (edges.erase old) := Finset.subset_insert _ _
  have around := exchange _ kept (joined _ (Finset.mem_insert_self _ _))
  refine ⟨insert edge (edges.erase old),
    joins.replace (crossing_eq_some next).1 around, ?_, ?_⟩
  · intro other listed
    rcases List.mem_cons.mp (List.mem_toFinset.mp listed) with rfl | earlier
    · exact Finset.mem_insert_self _ _
    · -- an edge taken before does not cross, so it is not the one given up
      refine kept (Finset.mem_erase.mpr ⟨?_, held (List.mem_toFinset.mpr earlier)⟩)
      rintro rfl
      have both := grown.within other earlier
      simp [crosses, both.1, both.2] at oldCrossed
  · have cheaper := charge_le_of_crossing next (joins.stored old member) oldCrossed
    calc
      charge map (insert edge (edges.erase old))
          ≤ map.charge edge.weight + charge map (edges.erase old) := charge_insert_le map _ _
      _ ≤ map.charge old.weight + charge map (edges.erase old) := by omega
      _ = charge map edges := Finset.add_sum_erase edges (fun edge => map.charge edge.weight) member

/-- The edges of the grown tree are held by a set that joins the component and costs no more
than any given one, since each edge taken can stand in for one of the set.
-/
theorem Joins.exists_superset (map : WeightMap) (joins : Joins graph seed edges)
    : ∃ more,
        (graph.spanned map seed).2.toFinset ⊆ more ∧ charge map more ≤ charge map edges := by
  suffices both : Grown graph seed (graph.spanned map seed).1 (graph.spanned map seed).2
      ∧ ∃ more,
          Joins graph seed more
          ∧ (graph.spanned map seed).2.toFinset ⊆ more
          ∧ charge map more ≤ charge map edges by
    obtain ⟨more, _, held, cheaper⟩ := both.2
    exact ⟨more, held, cheaper⟩
  apply grow_keeps fun inside taken =>
    Grown graph seed inside taken
    ∧ ∃ more,
        Joins graph seed more ∧ taken.toFinset ⊆ more ∧ charge map more ≤ charge map edges
  · intro inside taken edge next before
    obtain ⟨grown, more, joining, held, cheaper⟩ := before
    obtain ⟨stored, crossed⟩ := crossing_eq_some next
    obtain ⟨exchanged, joining, held, cheapest⟩ := joining.exchange grown held next
    exact ⟨grown.take stored crossed, exchanged, joining, held, cheapest.trans cheaper⟩
  · exact ⟨Grown.start graph seed, edges, joins, by simp, le_rfl⟩

/-- The tree that is grown is the cheapest. -/
theorem Joins.charge_spanned_le (joins : Joins graph seed edges)
    : charge map (graph.spanned map seed).2.toFinset ≤ charge map edges := by
  obtain ⟨more, holds, cheaper⟩ := joins.exists_superset map
  exact (Finset.sum_le_sum_of_subset holds).trans cheaper

end GraphShell.Graph
