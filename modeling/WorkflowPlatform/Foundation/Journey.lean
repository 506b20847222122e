import Mathlib.Data.List.Chain
import Mathlib.Data.List.Basic

/-! # Journeys through a graph of decisions

A decision taken at a node enables edges to further nodes, or to the end. A
journey enters at an entry and follows one enabled edge for each decision; it
ends by an edge to the end or where a decision enables no edge. Its log keeps the
visited nodes with the decisions taken there.
-/

universe uNode uDecision

/-- Entries, and the edges that a decision enables at a node. An edge without a
target leads to the end. -/
structure DecisionGraph (Node : Type uNode) (Decision : Type uDecision) where
  entry : Node → Prop
  edge : Node → Decision → Option Node → Prop

namespace DecisionGraph

variable {Node : Type uNode} {Decision : Type uDecision}

/-- A decision that ends a journey at a node. -/
def Ends (graph : DecisionGraph Node Decision) (node : Node) (decision : Decision) : Prop :=
  graph.edge node decision none ∨ ∀ target, ¬graph.edge node decision target

/-- The log of a journey, and the node it is at unless it has ended. -/
inductive Journey (graph : DecisionGraph Node Decision) :
    List (Node × Decision) → Option Node → Prop
  | enter {node : Node} (hentry : graph.entry node) : Journey graph [] (some node)
  | move {log : List (Node × Decision)} {node : Node} {decision : Decision} {next : Node}
      (hjourney : Journey graph log (some node)) (hedge : graph.edge node decision (some next)) :
      Journey graph (log ++ [(node, decision)]) (some next)
  | finish {log : List (Node × Decision)} {node : Node} {decision : Decision}
      (hjourney : Journey graph log (some node)) (hends : graph.Ends node decision) :
      Journey graph (log ++ [(node, decision)]) none

namespace Journey

variable {graph other : DecisionGraph Node Decision} {log : List (Node × Decision)}
  {current : Option Node}

/-- One visit leads to the next. -/
def Leads (graph : DecisionGraph Node Decision) (visit next : Node × Decision) : Prop :=
  graph.edge visit.1 visit.2 (some next.1)

/-- The last visit of a log leads to the current node. -/
theorem edge_of_concat {visit : Node × Decision} {node : Node}
    (hjourney : Journey graph (log ++ [visit]) (some node)) :
    graph.edge visit.1 visit.2 (some node) := by
  generalize hlog : log ++ [visit] = whole at hjourney
  generalize hcurrent : some node = current at hjourney
  cases hjourney with
  | enter hentry => simp at hlog
  | move hjourney hedge =>
      obtain ⟨rfl, heq⟩ := List.append_inj' hlog rfl
      cases hcurrent
      cases heq
      exact hedge
  | finish hjourney hends => cases hcurrent

/-- A decision at the current node continues the chain of visits. -/
theorem isChain_concat {node : Node} {decision : Decision}
    (hjourney : Journey graph log (some node)) (hlog : log.IsChain (Leads graph)) :
    (log ++ [(node, decision)]).IsChain (Leads graph) := by
  rcases List.eq_nil_or_concat log with rfl | ⟨before, visit, rfl⟩
  · exact List.isChain_singleton _
  · rw [List.concat_eq_append] at hlog hjourney ⊢
    exact List.isChain_append.mpr ⟨hlog, List.isChain_singleton _, by
      simpa [Leads] using edge_of_concat hjourney⟩

/-- Consecutive visits are joined by an edge. -/
theorem isChain (hjourney : Journey graph log current) : log.IsChain (Leads graph) := by
  induction hjourney with
  | enter hentry => exact List.isChain_nil
  | move hjourney hedge ih => exact isChain_concat hjourney ih
  | finish hjourney hends ih => exact isChain_concat hjourney ih

/-- A journey that has ended has been somewhere. -/
theorem log_ne_nil (hjourney : Journey graph log none) : log ≠ [] := by
  generalize hcurrent : none = current at hjourney
  cases hjourney with
  | enter hentry => cases hcurrent
  | move hjourney hedge => cases hcurrent
  | finish hjourney hends => simp

/-- The first node of a journey is an entry. -/
theorem entry_head (hjourney : Journey graph log current) :
    ∃ first, (log.map Prod.fst ++ current.toList).head? = some first ∧ graph.entry first := by
  induction hjourney with
  | @enter node hentry => exact ⟨node, rfl, hentry⟩
  | @move log node decision next hjourney hedge ih =>
      obtain ⟨first, hhead, hentry⟩ := ih
      exact ⟨first, by cases log <;> simpa using hhead, hentry⟩
  | @finish log node decision hjourney hends ih =>
      obtain ⟨first, hhead, hentry⟩ := ih
      exact ⟨first, by cases log <;> simpa using hhead, hentry⟩

/-- A journey that has ended did so by its last decision. -/
theorem ends (hjourney : Journey graph log none) :
    ∃ visit, log.getLast? = some visit ∧ graph.Ends visit.1 visit.2 := by
  generalize hcurrent : none = current at hjourney
  cases hjourney with
  | enter hentry => cases hcurrent
  | move hjourney hedge => cases hcurrent
  | @finish log node decision hjourney hends =>
      exact ⟨(node, decision), by simp, hends⟩

/-- A journey stays inside what its entries lie in and its edges do not leave. -/
theorem inside {region : Node → Prop} (hentry : ∀ node, graph.entry node → region node)
    (hedge : ∀ node decision next, region node → graph.edge node decision (some next) → region next)
    (hjourney : Journey graph log current) : ∀ node ∈ current, region node := by
  induction hjourney with
  | enter henter =>
      rintro _ ⟨⟩
      exact hentry _ henter
  | move hjourney hstep ih =>
      rintro _ ⟨⟩
      exact hedge _ _ _ (ih _ rfl) hstep
  | finish hjourney hends ih => rintro _ ⟨⟩

/-- So do all the nodes it has visited. -/
theorem visits_inside {region : Node → Prop} (hentry : ∀ node, graph.entry node → region node)
    (hedge : ∀ node decision next, region node → graph.edge node decision (some next) → region next)
    (hjourney : Journey graph log current) : ∀ visit ∈ log, region visit.1 := by
  induction hjourney with
  | enter henter => simp
  | move hjourney hstep ih | finish hjourney hends ih =>
      intro visit hvisit
      rcases List.mem_append.mp hvisit with hearlier | hlast
      · exact ih visit hearlier
      · rw [List.mem_singleton.mp hlast]
        exact inside hentry hedge hjourney _ rfl

/-- Graphs that agree on a region have the same journeys inside it. -/
theorem congr (region : Node → Prop) (hentry : ∀ node, graph.entry node → region node)
    (hedge : ∀ node decision next, region node → graph.edge node decision (some next) → region next)
    (hsameEntry : ∀ node, graph.entry node → other.entry node)
    (hsameEdge : ∀ node decision target, region node →
      (graph.edge node decision target ↔ other.edge node decision target))
    (hjourney : Journey graph log current) : Journey other log current := by
  induction hjourney with
  | enter henter => exact .enter (hsameEntry _ henter)
  | move hjourney hstep ih =>
      exact .move ih ((hsameEdge _ _ _ (inside hentry hedge hjourney _ rfl)).mp hstep)
  | @finish log node decision hjourney hends ih =>
      have hsame := fun target => hsameEdge _ decision target (inside hentry hedge hjourney _ rfl)
      refine .finish ih ?_
      rcases hends with hend | hnone
      · exact .inl ((hsame none).mp hend)
      · exact .inr fun target hother => hnone target ((hsame target).mpr hother)

end Journey

end DecisionGraph
