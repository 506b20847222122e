import Mathlib.Data.List.Nodup
import WorkflowPlatform.Foundation.Journey

/-! # Lines

A line is a part of a decision graph whose nodes follow each other. Decisions to go
on lead from each node to the next and from the last to the end; decisions to halt
end a journey where they are taken. A journey along a line visits its nodes in
order, without a gap, as far as its decisions go on.
-/

universe u v uNode uDecision

/-! ## Neighbours in a list -/

section Neighbours

variable {α : Type u} {β : Type v}

/-- Each entry with the one after it. -/
def neighbours : List α → List (α × Option α)
  | [] => []
  | current :: rest => (current, rest.head?) :: neighbours rest

theorem neighbours_map (f : α → β) (entries : List α) :
    neighbours (entries.map f) = (neighbours entries).map (Prod.map f (Option.map f)) := by
  induction entries with
  | nil => rfl
  | cons entry rest ih => simp [neighbours, ih]

theorem neighbours_fst (entries : List α) : (neighbours entries).map Prod.fst = entries := by
  induction entries with
  | nil => rfl
  | cons entry rest ih => simp [neighbours, ih]

theorem mem_neighbours {entries : List α} {current : α} {next : Option α} :
    (current, next) ∈ neighbours entries ↔
      ∃ before rest, entries = before ++ current :: rest ∧ next = rest.head? := by
  induction entries with
  | nil => simp [neighbours]
  | cons entry tail ih =>
      rw [neighbours, List.mem_cons, ih, Prod.mk.injEq]
      constructor
      · rintro (⟨rfl, rfl⟩ | ⟨before, rest, rfl, hnext⟩)
        · exact ⟨[], tail, rfl, rfl⟩
        · exact ⟨entry :: before, rest, rfl, hnext⟩
      · rintro ⟨before, rest, heq, hnext⟩
        cases before with
        | nil =>
            cases heq
            exact .inl ⟨rfl, hnext⟩
        | cons first before =>
            cases heq
            exact .inr ⟨before, rest, rfl, hnext⟩

/-- In a list without repetition an entry has one neighbour. -/
theorem neighbour_unique {entries : List α} (hnodup : entries.Nodup) {before rest : List α}
    {current : α} (hsplit : entries = before ++ current :: rest) {next : Option α}
    (hnext : (current, next) ∈ neighbours entries) : next = rest.head? := by
  have hmem : (current, rest.head?) ∈ neighbours entries :=
    mem_neighbours.mpr ⟨before, rest, hsplit, rfl⟩
  have hkeys : ((neighbours entries).map Prod.fst).Nodup := by
    rwa [neighbours_fst]
  exact congrArg Prod.snd (List.inj_on_of_nodup_map hkeys hnext hmem rfl)

end Neighbours

/-! ## Lines in a graph -/

namespace DecisionGraph

variable {Node : Type uNode} {Decision : Type uDecision}

/-- The nodes of a line, which is entered at the first. -/
structure Line (graph : DecisionGraph Node Decision) (nodes : List Node)
    (goesOn halts : Decision → Prop) : Prop where
  entry : ∀ node, graph.entry node → nodes.head? = some node
  next : ∀ before node rest, nodes = before ++ node :: rest → ∀ decision, goesOn decision →
    ∀ target, graph.edge node decision target ↔ target = rest.head?
  halt : ∀ node ∈ nodes, ∀ decision, halts decision → ∀ next, ¬graph.edge node decision (some next)

namespace Line

variable {graph : DecisionGraph Node Decision} {nodes : List Node} {goesOn halts : Decision → Prop}
  {log : List (Node × Decision)} {current : Option Node}

/-- A journey of decisions to go on has visited the first nodes, and is at the next. -/
theorem visited (hline : Line graph nodes goesOn halts) (hjourney : graph.Journey log current)
    (hforward : ∀ visit ∈ log, goesOn visit.2) :
    ∃ rest, nodes = log.map Prod.fst ++ rest ∧ current = rest.head? := by
  induction hjourney with
  | @enter node hentry => exact ⟨nodes, rfl, (hline.entry node hentry).symm⟩
  | @move log node decision next hjourney hedge ih =>
      obtain ⟨rest, hnodes, hcurrent⟩ := ih fun visit hvisit =>
        hforward visit (List.mem_append_left _ hvisit)
      obtain ⟨rest, rfl⟩ := List.head?_eq_some_iff.mp hcurrent.symm
      have hdecision := hforward (node, decision) (List.mem_append_right _ List.mem_cons_self)
      refine ⟨rest, ?_, (hline.next _ node rest hnodes decision hdecision _).mp hedge⟩
      rw [hnodes, List.map_append, List.append_assoc]
      rfl
  | @finish log node decision hjourney hends ih =>
      obtain ⟨rest, hnodes, hcurrent⟩ := ih fun visit hvisit =>
        hforward visit (List.mem_append_left _ hvisit)
      obtain ⟨rest, rfl⟩ := List.head?_eq_some_iff.mp hcurrent.symm
      have hdecision := hforward (node, decision) (List.mem_append_right _ List.mem_cons_self)
      have hnext := hline.next _ node rest hnodes decision hdecision
      refine ⟨rest, ?_, ?_⟩
      · rw [hnodes, List.map_append, List.append_assoc]
        rfl
      · rcases hends with hend | hnone
        · exact (hnext none).mp hend
        · exact absurd ((hnext _).mpr rfl) (hnone rest.head?)

/-- A journey whose last decision is the first to halt has visited the first nodes,
and is over. -/
theorem halted (hline : Line graph nodes goesOn halts) {node : Node} {decision : Decision}
    (hjourney : graph.Journey (log ++ [(node, decision)]) current)
    (hforward : ∀ visit ∈ log, goesOn visit.2) (hhalts : halts decision) :
    current = none ∧ ∃ rest, nodes = log.map Prod.fst ++ node :: rest := by
  generalize hwhole : log ++ [(node, decision)] = whole at hjourney
  cases hjourney with
  | enter hentry => simp at hwhole
  | @move before node' decision' next hjourney hedge =>
      obtain ⟨rfl, heq⟩ := List.append_inj' hwhole rfl
      cases heq
      obtain ⟨rest, hnodes, hcurrent⟩ := hline.visited hjourney hforward
      obtain ⟨rest, rfl⟩ := List.head?_eq_some_iff.mp hcurrent.symm
      exact absurd hedge (hline.halt node (hnodes ▸ by simp) decision hhalts next)
  | @finish before node' decision' hjourney hends =>
      obtain ⟨rfl, heq⟩ := List.append_inj' hwhole rfl
      cases heq
      obtain ⟨rest, hnodes, hcurrent⟩ := hline.visited hjourney hforward
      obtain ⟨rest, rfl⟩ := List.head?_eq_some_iff.mp hcurrent.symm
      exact ⟨rfl, rest, hnodes⟩

end Line

end DecisionGraph
