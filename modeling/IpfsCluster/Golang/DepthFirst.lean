import Mathlib.Data.List.Basic
import Mathlib.Logic.Relation

/-! # Depth-first search with a shared set of visited nodes

A recursive search enters a node that was not visited, marks it and goes on with its children, one after the other and
with the same marks. The depth is limited by fuel. Nodes that have children being finitely many, enough fuel lets the
search from an unmarked start enter exactly the nodes below it, cycles or not.
-/

namespace IpfsCluster.Golang

open List

variable {α β : Type} (children : α → List α) (enter : α → β → β) {nodes : List α}

section

def Below : α → α → Prop := Relation.ReflTransGen fun a b => b ∈ children a

/-- The second state has entered some nodes of a set after the first. -/
def Enters (within : α → Prop) (state next : β × List α) : Prop :=
  ∃ order : List α, (∀ a ∈ order, within a) ∧
    next = (order.foldl (fun found a => enter a found) state.1, order.reverse ++ state.2)

/-- The children of all nodes that became visited are visited. -/
def Closes (state next : β × List α) : Prop := ∀ a ∈ next.2, a ∉ state.2 → ∀ b ∈ children a, b ∈ next.2

variable {children enter} {within : α → Prop} {state next last : β × List α}

theorem Enters.refl (state : β × List α) : Enters enter within state state :=
  ⟨[], fun _ member => (not_mem_nil member).elim, rfl⟩

theorem Enters.trans (first : Enters enter within state next) (second : Enters enter within next last) :
    Enters enter within state last := by
  obtain ⟨order, inside, rfl⟩ := first
  obtain ⟨more, insideMore, rfl⟩ := second
  refine ⟨order ++ more, fun a member => ?_, ?_⟩
  · exact (mem_append.mp member).elim (inside a) (insideMore a)
  · rw [foldl_append, reverse_append, append_assoc]

theorem Enters.mono {wider : α → Prop} (widens : ∀ a, within a → wider a) (enters : Enters enter within state next) :
    Enters enter wider state next := by
  obtain ⟨order, inside, reached⟩ := enters
  exact ⟨order, fun a member => widens a (inside a member), reached⟩

theorem Enters.subset (enters : Enters enter within state next) : state.2 ⊆ next.2 := by
  obtain ⟨order, _, rfl⟩ := enters
  exact subset_append_right _ _

theorem Closes.refl (state : β × List α) : Closes children state state := fun _ member unseen => (unseen member).elim

theorem Closes.trans (grows : next.2 ⊆ last.2) (first : Closes children state next)
    (second : Closes children next last) : Closes children state last := by
  intro a member unseen b child
  by_cases seen : a ∈ next.2
  · exact grows (first a seen unseen b child)
  · exact second a member seen b child

variable {visit : α → β × List α → β × List α}

/-- What a search does for each of some nodes, one after the other. -/
theorem enters_foldl (each : ∀ a ∈ nodes, ∀ state, Enters enter within state (visit a state)) (state : β × List α) :
    Enters enter within state (nodes.foldl (fun state a => visit a state) state) := by
  induction nodes generalizing state with
  | nil => exact .refl state
  | cons a rest ih =>
    have first := each a mem_cons_self state
    exact first.trans (ih (fun b member => each b (mem_cons_of_mem _ member)) _)

/-- A node is visited and what is below it is closed, whenever a monotone condition on the marks holds. -/
theorem closes_foldl (ready : List α → Prop) (grows : ∀ a state, state.2 ⊆ (visit a state).2)
    (stays : ∀ less more, less ⊆ more → ready less → ready more)
    (each : ∀ a ∈ nodes, ∀ state, ready state.2 → a ∈ (visit a state).2 ∧ Closes children state (visit a state))
    (state : β × List α) (initial : ready state.2) : state.2 ⊆ (nodes.foldl (fun state a => visit a state) state).2 ∧
      (∀ a ∈ nodes, a ∈ (nodes.foldl (fun state a => visit a state) state).2) ∧
      Closes children state (nodes.foldl (fun state a => visit a state) state) := by
  induction nodes generalizing state with
  | nil => exact ⟨List.Subset.refl _, fun a member => (not_mem_nil member).elim, .refl state⟩
  | cons a rest ih =>
    obtain ⟨here, closed⟩ := each a mem_cons_self state initial
    obtain ⟨kept, later, closedLater⟩ := ih (fun b member => each b (mem_cons_of_mem _ member)) _
      (stays _ _ (grows a state) initial)
    refine ⟨List.Subset.trans (grows a state) kept, fun b member => ?_, closed.trans kept closedLater⟩
    rcases mem_cons.mp member with rfl | inRest
    · exact kept here
    · exact later b inRest

end

section

variable [DecidableEq α]

/-- Enter a node and those below it, at most `fuel` levels deep; visited ones are passed over. -/
def depthFirst : ℕ → α → β × List α → β × List α
  | 0, _, state => state
  | fuel + 1, node, (found, visited) =>
    if node ∈ visited then (found, visited)
    else (children node).foldl (fun state child => depthFirst fuel child state) (enter node found, node :: visited)

def unvisited (nodes visited : List α) : List α := nodes.filter fun a => a ∉ visited

theorem enters_depthFirst (fuel : ℕ) (node : α) (state : β × List α) :
    Enters enter (Below children node) state (depthFirst children enter fuel node state) := by
  induction fuel generalizing node state with
  | zero => exact .refl state
  | succ fuel ih =>
    obtain ⟨found, visited⟩ := state
    rw [depthFirst]
    split
    · exact .refl _
    · have first : Enters enter (Below children node) (found, visited) (enter node found, node :: visited) := by
        refine ⟨[node], fun a member => ?_, rfl⟩
        rw [mem_singleton.mp member]
        exact .refl
      refine first.trans (enters_foldl (fun child member state => ?_) _)
      exact (ih child state).mono fun a below => .head member below

variable {children}

theorem length_unvisited_le {less more : List α} (nodes : List α) (subset : less ⊆ more) :
    (unvisited nodes more).length ≤ (unvisited nodes less).length := by
  refine (monotone_filter_right nodes fun a unseen => ?_).length_le
  exact decide_eq_true fun seen => of_decide_eq_true unseen (subset seen)

theorem length_unvisited_cons_lt {visited : List α} {node : α} (member : node ∈ nodes) (unseen : node ∉ visited) :
    (unvisited nodes (node :: visited)).length < (unvisited nodes visited).length := by
  have split : unvisited nodes (node :: visited) = (unvisited nodes visited).filter fun a => a ≠ node := by
    rw [unvisited, unvisited, filter_filter]
    exact filter_congr fun a _ => by simp
  rw [split]
  refine length_filter_lt_length_iff_exists.mpr ⟨node, ?_, by simp⟩
  exact mem_filter.mpr ⟨member, decide_eq_true unseen⟩

variable (inner : ∀ a, children a ≠ [] → a ∈ nodes)

include inner

/-- With more fuel than there are unvisited nodes that have children, a search leaves nothing out. -/
theorem closes_depthFirst (fuel : ℕ) (node : α) (state : β × List α)
    (enough : (unvisited nodes state.2).length < fuel) : node ∈ (depthFirst children enter fuel node state).2 ∧
      Closes children state (depthFirst children enter fuel node state) := by
  induction fuel generalizing node state with
  | zero => exact (Nat.not_lt_zero _ enough).elim
  | succ fuel ih =>
    obtain ⟨found, visited⟩ := state
    rw [depthFirst]
    split
    next seen => exact ⟨seen, .refl _⟩
    next unseen =>
      have ready : children node = [] ∨ (unvisited nodes (node :: visited)).length < fuel := by
        refine or_iff_not_imp_left.mpr fun some_child => ?_
        have decreases := length_unvisited_cons_lt (inner node some_child) unseen
        exact Nat.lt_of_lt_of_le decreases (Nat.le_of_lt_succ enough)
      obtain ⟨kept, all, closed⟩ := closes_foldl
        (fun visited => children node = [] ∨ (unvisited nodes visited).length < fuel)
        (fun a state => (enters_depthFirst children enter fuel a state).subset)
        (fun less more subset => Or.imp_right (Nat.lt_of_le_of_lt (length_unvisited_le nodes subset)))
        (fun child member state left => ih child state (left.resolve_left (ne_nil_of_mem member)))
        (enter node found, node :: visited) ready
      refine ⟨kept mem_cons_self, fun a member before b child => ?_⟩
      by_cases same : a = node
      · exact all b (same ▸ child)
      · exact closed a member (fun seen => (mem_cons.mp seen).elim same before) b child

/-- A search from no marks enters the nodes below its start, in some order, and no others. -/
theorem exists_depthFirst {fuel : ℕ} (enough : nodes.length < fuel) (node : α) (found : β) :
    ∃ order : List α, (∀ a, a ∈ order ↔ Below children node a) ∧
      (depthFirst children enter fuel node (found, [])).1 = order.foldl (fun found a => enter a found) found := by
  obtain ⟨order, inside, reached⟩ := enters_depthFirst children enter fuel node (found, [])
  have fits : (unvisited nodes []).length < fuel := Nat.lt_of_le_of_lt (length_filter_le _ _) enough
  obtain ⟨start, closed⟩ := closes_depthFirst enter inner fuel node (found, []) fits
  rw [reached] at start closed
  have listed (a : α) : a ∈ order.reverse ++ [] ↔ a ∈ order := by rw [append_nil, mem_reverse]
  refine ⟨order, fun a => ⟨inside a, fun below => ?_⟩, by rw [reached]⟩
  induction below with
  | refl => exact (listed node).mp start
  | tail _ child ih => exact (listed _).mp (closed _ ((listed _).mpr ih) not_mem_nil _ child)

end

end IpfsCluster.Golang
