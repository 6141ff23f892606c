import IpfsCluster.Model.Adder.Sharding

/-! # The layout of a DAG of links

Up to `maxLinks` links are held by the root. More links are held by leaves of `maxLinks` consecutive
links each, the last leaf having the rest, and the root links to the leaves only.
-/

namespace IpfsCluster.Proofs.Adder

open Golang Golang.Fallible Golang.Indexed List Model Model.Adder Model.Api

def slice (links : List Cid) (i : ℕ) : List Cid := (links.drop (i * maxLinks)).take maxLinks

section

variable {wrapObject : DagObj → Except Error Cid} {dagObj : DagObj} {links : List Cid}

theorem makeDAGSimple_eq_ok {node : CborNode} (made : makeDAGSimple wrapObject dagObj = .ok node) :
    wrapObject dagObj = .ok node.cid ∧ node.obj = dagObj := by
  obtain ⟨c, wrapped, same⟩ := result_bind_eq_ok.mp made
  cases same
  exact ⟨wrapped, rfl⟩

section

variable (lists : Lists dagObj links)

include lists

theorem fillLeaf_lists (numFullLeaves i : ℕ) (full : i ≠ numFullLeaves → (i + 1) * maxLinks ≤ links.length)
    {position count : ℕ} (split : position + count = maxLinks) {leafObj : DagObj}
    (filled : Lists leafObj ((links.drop (i * maxLinks)).take position))
    (reached : i * maxLinks + position ≤ links.length) :
    ∃ leaf, fillLeaf dagObj numFullLeaves i (List.range' position count) leafObj = .ok leaf ∧
      Lists leaf (slice links i) := by
  induction count generalizing position leafObj with
  | zero =>
    obtain rfl : position = maxLinks := by omega
    exact ⟨leafObj, rfl, filled⟩
  | succ count ih =>
    have length : ((links.drop (i * maxLinks)).take position).length = position := by
      rw [length_take, length_drop]
      omega
    rw [range'_succ, fillLeaf, lists.lookup]
    rcases Nat.lt_or_ge (i * maxLinks + position) links.length with inside | outside
    · rw [getElem?_eq_getElem inside]
      have grown : Lists (leafObj.insert (decimal position) links[i * maxLinks + position])
          ((links.drop (i * maxLinks)).take (position + 1)) := by
        have pushed := filled.push links[i * maxLinks + position]
        rw [Indexed.push, filled.length, length] at pushed
        rwa [take_add_one, getElem?_drop, getElem?_eq_getElem inside]
      exact ih (by omega) grown (by omega)
    · rw [getElem?_eq_none outside]
      have last : i = numFullLeaves := by
        by_contra other
        have enough := full other
        rw [Nat.add_mul] at enough
        omega
      refine ⟨leafObj, by simp only [ne_eq, last, not_true_eq_false, ↓reduceIte], ?_⟩
      have ended : (links.drop (i * maxLinks)).take position = slice links i := by
        rw [slice, take_of_length_le (by rw [length_drop]; omega), take_of_length_le (by rw [length_drop]; omega)]
      rwa [← ended]

theorem fillLeaf_slice {numFullLeaves i : ℕ} (isQuotient : numFullLeaves = links.length / maxLinks)
    (notAfter : i ≤ numFullLeaves) :
    ∃ leaf, fillLeaf dagObj numFullLeaves i (List.range maxLinks) ∅ = .ok leaf ∧ Lists leaf (slice links i) := by
  have reached (i : ℕ) (notAfter : i ≤ numFullLeaves) : i * maxLinks ≤ links.length :=
    Nat.mul_le_of_le_div maxLinks i links.length (isQuotient ▸ notAfter)
  have begun := reached i notAfter
  rw [range_eq_range']
  exact fillLeaf_lists lists numFullLeaves i (fun notLast => reached (i + 1) (by omega)) (Nat.zero_add maxLinks)
    lists_empty (by omega)

structure Leaves (wrapObject : DagObj → Except Error Cid) (links : List Cid) (count : ℕ) (indirectObj : DagObj)
    (leafNodes : List CborNode) : Prop where
  lists : Lists indirectObj (leafNodes.map (·.cid))
  length : leafNodes.length = count
  leaf : ∀ i node, leafNodes[i]? = some node → Lists node.obj (slice links i) ∧ wrapObject node.obj = .ok node.cid

theorem makeLeaves_leaves {numFullLeaves : ℕ} (isQuotient : numFullLeaves = links.length / maxLinks) {made left : ℕ}
    (split : made + left = numFullLeaves + 1) {indirectObj indirect : DagObj} {leafNodes nodes : List CborNode}
    (before : Leaves wrapObject links made indirectObj leafNodes)
    (result : makeLeaves wrapObject dagObj numFullLeaves (List.range' made left) indirectObj leafNodes =
      .ok (indirect, nodes)) : Leaves wrapObject links (numFullLeaves + 1) indirect nodes := by
  induction left generalizing made indirectObj leafNodes with
  | zero =>
    obtain ⟨rfl, rfl⟩ := Prod.mk.inj (Except.ok.inj result)
    obtain rfl : made = numFullLeaves + 1 := by omega
    exact before
  | succ left ih =>
    obtain ⟨leafObj, filled, ofSlice⟩ := fillLeaf_slice lists isQuotient (show made ≤ numFullLeaves by omega)
    rw [range'_succ, makeLeaves, filled] at result
    obtain ⟨_, same, result⟩ := result_bind_eq_ok.mp result
    cases same
    obtain ⟨leafNode, wrapped, result⟩ := result_bind_eq_ok.mp result
    obtain ⟨ofCid, ofObj⟩ := makeDAGSimple_eq_ok wrapped
    refine ih (by omega) ⟨?_, ?_, ?_⟩ result
    · have pushed := before.lists.push leafNode.cid
      rw [Indexed.push, before.lists.length, length_map, before.length] at pushed
      rwa [map_append, map_singleton]
    · rw [length_append, before.length, length_singleton]
    · intro i node found
      rcases Nat.lt_or_ge i leafNodes.length with old | new
      · rw [getElem?_append_left old] at found
        exact before.leaf i node found
      · rw [getElem?_append_right new] at found
        obtain ⟨bound, rfl⟩ := List.getElem?_eq_some_iff.mp found
        rw [length_singleton] at bound
        obtain rfl : i = made := by
          have := before.length
          omega
        simp only [getElem_singleton, ofObj]
        exact ⟨ofSlice, ofCid⟩

inductive Layout (wrapObject : DagObj → Except Error Cid) (dagObj : DagObj) (links : List Cid) : List CborNode → Prop
  | simple (root : CborNode) (few : links.length ≤ maxLinks) (ofCid : wrapObject root.obj = .ok root.cid)
      (ofObj : root.obj = dagObj) : Layout wrapObject dagObj links [root]
  | indirect (root : CborNode) (leafNodes : List CborNode) (many : maxLinks < links.length)
      (ofCid : wrapObject root.obj = .ok root.cid)
      (leaves : Leaves wrapObject links (links.length / maxLinks + 1) root.obj leafNodes) :
      Layout wrapObject dagObj links (root :: leafNodes)

theorem makeDAG_layout {nodes : List CborNode} (made : makeDAG wrapObject dagObj = .ok nodes) :
    Layout wrapObject dagObj links nodes := by
  rw [makeDAG, lists.length] at made
  split at made
  next few =>
    obtain ⟨root, wrapped, same⟩ := result_bind_eq_ok.mp made
    cases same
    obtain ⟨ofCid, ofObj⟩ := makeDAGSimple_eq_ok wrapped
    exact .simple root few (ofObj ▸ ofCid) ofObj
  next many =>
    obtain ⟨⟨indirectObj, leafNodes⟩, leavesMade, made⟩ := result_bind_eq_ok.mp made
    obtain ⟨root, wrapped, same⟩ := result_bind_eq_ok.mp made
    cases same
    have start : Leaves wrapObject links 0 ∅ [] := ⟨lists_empty, rfl, nofun⟩
    rw [range_eq_range'] at leavesMade
    have leaves := makeLeaves_leaves lists rfl (Nat.zero_add _) start leavesMade
    obtain ⟨ofCid, rfl⟩ := makeDAGSimple_eq_ok wrapped
    exact .indirect root leafNodes (by omega) ofCid leaves

end

section

variable (total : ∀ obj, ∃ c, wrapObject obj = .ok c)

include total

theorem makeDAGSimple_of_total (obj : DagObj) : ∃ node, makeDAGSimple wrapObject obj = .ok node := by
  obtain ⟨c, wrapped⟩ := total obj
  exact ⟨{ cid := c, obj := obj }, result_bind_eq_ok.mpr ⟨c, wrapped, rfl⟩⟩

theorem makeLeaves_of_total (lists : Lists dagObj links) {numFullLeaves : ℕ}
    (isQuotient : numFullLeaves = links.length / maxLinks) {made left : ℕ} (split : made + left = numFullLeaves + 1)
    (indirectObj : DagObj) (leafNodes : List CborNode) :
    ∃ result, makeLeaves wrapObject dagObj numFullLeaves (List.range' made left) indirectObj leafNodes = .ok result := by
  induction left generalizing made indirectObj leafNodes with
  | zero => exact ⟨(indirectObj, leafNodes), rfl⟩
  | succ left ih =>
    obtain ⟨leafObj, filled, -⟩ := fillLeaf_slice lists isQuotient (show made ≤ numFullLeaves by omega)
    obtain ⟨leafNode, wrapped⟩ := makeDAGSimple_of_total total leafObj
    obtain ⟨result, later⟩ := @ih (made + 1) (by omega) (indirectObj.insert (decimal made) leafNode.cid)
      (leafNodes ++ [leafNode])
    rw [range'_succ, makeLeaves]
    exact ⟨result, result_bind_eq_ok.mpr ⟨_, filled, result_bind_eq_ok.mpr ⟨_, wrapped, later⟩⟩⟩

theorem makeDAG_of_total (lists : Lists dagObj links) : ∃ nodes, makeDAG wrapObject dagObj = .ok nodes := by
  rw [makeDAG, lists.length]
  split
  · obtain ⟨root, made⟩ := makeDAGSimple_of_total total dagObj
    exact ⟨[root], result_bind_eq_ok.mpr ⟨_, made, rfl⟩⟩
  · obtain ⟨⟨indirectObj, leafNodes⟩, leaves⟩ :=
      makeLeaves_of_total total lists rfl (Nat.zero_add (links.length / maxLinks + 1)) ∅ []
    obtain ⟨root, made⟩ := makeDAGSimple_of_total total indirectObj
    rw [← range_eq_range'] at leaves
    exact ⟨root :: leafNodes, result_bind_eq_ok.mpr ⟨_, leaves, result_bind_eq_ok.mpr ⟨_, made, rfl⟩⟩⟩

end

section

variable {root : CborNode} {leafNodes : List CborNode} (layout : Layout wrapObject dagObj links (root :: leafNodes))

include layout

theorem Layout.rootLinks_perm (lists : Lists dagObj links) (few : links.length ≤ maxLinks) :
    (root.obj.entries.map (·.2)).Perm links := by
  cases layout with
  | simple _ _ _ ofObj =>
    rw [ofObj]
    exact lists.values_perm
  | indirect _ _ many => omega

theorem Layout.exists_not_mem_rootLinks (nodup : links.Nodup) (many : maxLinks < links.length) :
    ∃ link ∈ links, link ∉ root.obj.entries.map (·.2) := by
  cases layout with
  | simple _ few => omega
  | indirect _ _ _ _ leaves =>
    by_contra none
    push Not at none
    have bound := (subperm_of_subset nodup none).length_le
    rw [length_map, leaves.lists.length, length_map, leaves.length] at bound
    unfold maxLinks at many bound
    omega

end

theorem flatMap_slice (links : List Cid) (count : ℕ) :
    (List.range count).flatMap (slice links) = links.take (count * maxLinks) := by
  induction count with
  | zero => rw [range_zero, flatMap_nil, Nat.zero_mul, take_zero]
  | succ count ih =>
    rw [range_succ, flatMap_append, ih, flatMap_singleton, slice, Nat.succ_mul, take_add]

theorem Leaves.flatMap_lookups {root : DagObj} {leafNodes : List CborNode}
    (leaves : Leaves wrapObject links (links.length / maxLinks + 1) root leafNodes) :
    leafNodes.flatMap (fun leaf => lookups leaf.obj) = links.map some := by
  have each : leafNodes.map (fun leaf => lookups leaf.obj) =
      (List.range (links.length / maxLinks + 1)).map fun i => (slice links i).map some := by
    refine ext_getElem? fun i => ?_
    rw [getElem?_map, getElem?_map, ← leaves.length]
    cases found : leafNodes[i]? with
    | none => rw [getElem?_eq_none (length_range.trans_le (getElem?_eq_none_iff.mp found))]; rfl
    | some leaf =>
      obtain ⟨inside, -⟩ := List.getElem?_eq_some_iff.mp found
      rw [getElem?_range inside, Option.map_some, Option.map_some, (leaves.leaf i leaf found).1.lookups_eq]
  have enough : links.length ≤ (links.length / maxLinks + 1) * maxLinks := by
    have := Nat.lt_div_mul_add (a := links.length) (b := maxLinks) (by decide)
    rw [Nat.add_mul, Nat.one_mul]
    omega
  rw [flatMap_def, each, ← flatMap_def, ← map_flatMap, flatMap_slice, take_of_length_le enough]

end

end IpfsCluster.Proofs.Adder
