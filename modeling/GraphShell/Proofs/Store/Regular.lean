import GraphShell.Proofs.Binary.Logarithm
import GraphShell.Proofs.Graph.Costs
import GraphShell.Proofs.Graph.FiniteWeights
import GraphShell.Proofs.Scalar.RoundTrip
import GraphShell.Proofs.Store.Answers
import GraphShell.Proofs.Store.Neighbourhood
import GraphShell.Proofs.Store.Views

/-! A store keeps regular values and finite weights if it is given no others, and its views show the
values that it keeps; the weights of a tree are finite whatever those of the neighbourhood are.
Scores are finite where the weights out of each key have one sign: a weight is then no more than its
tail's whole weight. Weights of both signs may cancel, and what is left can be too small to divide
by.
-/

namespace GraphShell.Graph

open Binary

variable {graph neighbourhood : Graph} {seed tail head : String} {weight : Weight} {tfidf : Bool}

-----------------------------------------------------------------------------------------
-- Shares
-----------------------------------------------------------------------------------------

/-- No two weights out of the key have different signs. -/
def OneSided (graph : Graph) (tail : String) : Prop :=
  ∃ negative, ∀ head weight, graph.weight? tail head = some weight → weight.Sided negative

/-- Weights of one sign that are added up have a sum that none of them is beyond, by induction on
the weights that are still to be added.
-/
theorem magnitude_le_foldl_add {negative : Bool} {entries : List (String × Weight)}
    (weighed : ∀ entry ∈ entries, entry.2.isFinite = true ∧ entry.2.Sided negative) {sum : Double}
    (sided : sum.Sided negative) (number : sum.isNaN = false)
    : let total := entries.foldl (fun sum (_, weight) => sum + weight.convert .double) sum
      total.isNaN = false
      ∧ sum.magnitude ≤ total.magnitude
      ∧ ∀ entry ∈ entries, (entry.2.convert .double).magnitude ≤ total.magnitude := by
  induction entries generalizing sum with
  | nil => exact ⟨number, le_rfl, nofun⟩
  | cons entry entries ih =>
      obtain ⟨⟨finite, sign⟩, others⟩ := List.forall_mem_cons.mp weighed
      have wide := (Number.magnitudeUnits_convert Format.single_embeds_double finite).1
      have wideSign := sign.convert Format.single_embeds_double finite
      obtain ⟨next, nextNumber, start, here⟩ :=
        sided.add wideSign number (Number.isNaN_of_isFinite wide) (.inr wide)
      obtain ⟨total, above, later⟩ := ih others next nextNumber
      exact ⟨total, start.trans above, List.forall_mem_cons.mpr ⟨here.trans above, later⟩⟩

/-- A share is at most one if the weights out of the tail have one sign. -/
theorem magnitude_share_le (finite : graph.FiniteWeights) (sided : graph.OneSided tail)
    (found : graph.weight? tail head = some weight)
    : (graph.share tail weight).magnitude ≤ (1 : Double).magnitude := by
  obtain ⟨negative, signs⟩ := sided
  have weighed : ∀ entry ∈ graph.neighbors tail,
      entry.2.isFinite = true ∧ entry.2.Sided negative := by
    rintro ⟨head, weight⟩ member
    have drawn := mem_neighbors.mp member
    exact ⟨finite ⟨tail, head, weight⟩ (mem_edges.mpr drawn), signs head weight drawn⟩
  have origin : (.zero false : Double).isNaN = false := rfl
  obtain ⟨number, -, parts⟩ := magnitude_le_foldl_add weighed (.inl rfl) origin
  have listed : (head, weight) ∈ graph.neighbors tail := mem_neighbors.mpr found
  have wide : (weight.convert .double : Double).isFinite = true :=
    (Number.magnitudeUnits_convert Format.single_embeds_double (weighed _ listed).1).1
  unfold share
  dsimp only
  split
  · exact Nat.zero_le _
  · next nonzero =>
      exact Number.magnitude_div_le_one wide number (by simpa using nonzero) (parts _ listed)

-----------------------------------------------------------------------------------------
-- Rarity
-----------------------------------------------------------------------------------------

/-- The rarity of a key is small where 64 bits can count the keys. -/
theorem magnitude_rarity_le (countable : graph.keys.length ≤ UInt64.size) (key : String)
    : (graph.rarity key).magnitude ≤ (.ofNat (2 ^ 20) : Double).magnitude := by
  have limit : (.ofNat UInt64.size : Double).isFinite = true := by decide +kernel
  have below := Number.magnitude_ofNat_mono (f := .double) countable
  have finite := Number.isFinite_of_le below limit
  obtain ⟨sign, number, nonzero, units⟩ :=
    Number.one_add (y := .ofNat (graph.inDegree key)) rfl (Number.isNaN_ofNat _)
  refine Number.magnitude_ln_one_add_le ?_ ?_
  · rw [Number.negative_div finite number nonzero, sign]
    rfl
  · exact (Number.magnitude_div_le finite number units).trans below

-----------------------------------------------------------------------------------------
-- Scores
-----------------------------------------------------------------------------------------

/-- The weights out of each key have one sign, and 64 bits can count the keys. -/
structure Scorable (graph : Graph) : Prop where
  sided : ∀ tail, graph.OneSided tail
  countable : graph.keys.length ≤ UInt64.size

/-- Every score is finite if scores are weights, or the weights out of each key have one sign. -/
theorem isFinite_score (finite : graph.FiniteWeights) (calm : tfidf = false ∨ graph.Scorable)
    (found : graph.weight? tail head = some weight)
    : (graph.score tfidf ⟨tail, head, weight⟩).isFinite = true := by
  cases tfidf with
  | false =>
      rw [score_false]
      exact finite ⟨tail, head, weight⟩ (mem_edges.mpr found)
  | true =>
      have scorable := calm.resolve_left (by simp)
      have product : FitsSingle (1 * .ofNat (2 ^ 20)) := by decide +kernel
      have within := Number.magnitude_mul_mono
        (magnitude_share_le finite (scorable.sided tail) found)
        (magnitude_rarity_le scorable.countable head) (by decide +kernel) (by decide +kernel)
      rw [score_true]
      exact (FitsSingle.of_le within product).2

/-- Then a neighbourhood has finite weights too. -/
theorem finiteWeights_of_illuminate {step k : Int} (finite : graph.FiniteWeights)
    (calm : tfidf = false ∨ graph.Scorable)
    (answered : graph.illuminate? seed step k tfidf = some neighbourhood)
    : neighbourhood.FiniteWeights := by
  intro edge drawn
  obtain ⟨-, best⟩ := (weight?_illuminate answered).mp (mem_edges.mp drawn)
  obtain ⟨weight, found, score⟩ := score_of_mem_bestHeads best
  exact score ▸ isFinite_score finite calm found

end GraphShell.Graph

namespace GraphShell

-----------------------------------------------------------------------------------------
-- Stores
-----------------------------------------------------------------------------------------

namespace Memory

variable {memory : Memory} {now : Instant}

/-- Every kept value is regular, and every kept weight is finite. -/
structure Regular (memory : Memory) : Prop where
  values : ∀ key entry, memory.vertices.get? key = some entry → entry.value.Regular
  weights
    : ∀ tail head entry, memory.keptEdge? tail head = some entry → entry.value.isFinite = true

theorem regular_empty : Regular empty where
  values _ _ := nofun
  weights _ _ _ := nofun

theorem Regular.prune (regular : memory.Regular) (now : Instant) : (memory.prune now).Regular where
  values key entry found := by
    rw [get?_vertices_prune] at found
    exact regular.values key entry (Option.filter_eq_some_iff.mp found).1
  weights tail head entry found := by
    rw [keptEdge?_prune] at found
    exact regular.weights tail head entry (Option.filter_eq_some_iff.mp found).1

theorem Regular.putVertex {value : Scalar} (regular : memory.Regular) (good : value.Regular)
    (now : Instant) (key : String) (ttl : Duration)
    : (memory.putVertex now key value ttl).Regular where
  values other entry found := by
    simp only [Memory.putVertex, KeyMap.get?_insert] at found
    split at found
    · obtain rfl := Option.some.inj found
      exact good
    · exact (regular.prune now).values other entry found
  weights := (regular.prune now).weights

theorem Regular.addEdge {weight : Weight} (regular : memory.Regular)
    (good : weight.isFinite = true) (now : Instant) (tail head : String) (ttl : Duration)
    : (memory.addEdge now tail head weight ttl).Regular where
  values := (regular.prune now).values
  weights otherTail otherHead entry found := by
    rw [keptEdge?_addEdge] at found
    split at found
    · obtain rfl := Option.some.inj found
      exact good
    · exact (regular.prune now).weights otherTail otherHead entry found

/-- What is live is among what is kept. -/
theorem Regular.liveGraph (regular : memory.Regular) (now : Instant)
    : (memory.liveGraph now).Regular ∧ (memory.liveGraph now).FiniteWeights := by
  have made := memory.madeOf_liveGraph now
  constructor
  · intro value member
    obtain ⟨key, found⟩ := KeyMap.mem_values_iff.mp member
    obtain ⟨entry, kept, rfl⟩ := Entry.exists_of_value?_eq_some ((made.values key value).mp found)
    exact regular.values key entry kept
  · intro edge drawn
    have shown := (made.weights edge.tail edge.head edge.weight).mp (Graph.mem_edges.mp drawn)
    obtain ⟨entry, kept, same⟩ := Entry.exists_of_value?_eq_some shown
    exact same ▸ regular.weights edge.tail edge.head entry kept

end Memory

namespace Graph

variable {graph neighbourhood : Graph} {seed : String} {view : View}

/-- The values of a neighbourhood are values of the graph. -/
theorem Regular.illuminate {step k : Int} {tfidf : Bool} (regular : graph.Regular)
    (answered : graph.illuminate? seed step k tfidf = some neighbourhood)
    : neighbourhood.Regular := by
  intro value member
  obtain ⟨key, found⟩ := KeyMap.mem_values_iff.mp member
  rw [get?_vertices_illuminate answered] at found
  split at found
  · exact regular value (KeyMap.mem_values_iff.mpr ⟨key, found⟩)
  · cases found

/-- Every view of a rooted graph has its values. -/
theorem Rooted.vertices_derive (rooted : graph.Rooted seed) (view : View)
    : (graph.derive view seed).vertices = graph.vertices := by
  cases shown : view.weightMap? with
  | some map => exact (rooted.spannedBy_derive shown).vertices
  | none =>
      cases view with
      | neighbor => rfl
      | sptCost | sptRelevance | mstCost | mstRelevance => cases shown

/-- A tree shows mapped weights, and these are finite. -/
theorem Rooted.finiteWeights_derive (rooted : graph.Rooted seed)
    (finite : view ≠ .neighbor ∨ graph.FiniteWeights)
    : (graph.derive view seed).FiniteWeights := by
  cases shown : view.weightMap? with
  | some map =>
      intro edge drawn
      obtain ⟨weight, -, same⟩ := (rooted.spannedBy_derive shown).edges edge drawn
      exact same ▸ map.isFinite_apply weight
  | none =>
      cases view with
      | neighbor => exact finite.resolve_left (absurd rfl)
      | sptCost | sptRelevance | mstCost | mstRelevance => cases shown

end Graph

end GraphShell
