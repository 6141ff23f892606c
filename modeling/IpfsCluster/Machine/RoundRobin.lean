import Mathlib.Data.List.Nodup
import Mathlib.Data.List.ReduceOption
import Mathlib.Data.Nat.ModEq

/-! # Groups that take turns

Items are picked from groups that are visited one after the other, over and over again. Time is counted in visits,
so that the number of a visit tells whose turn it is. A visit picks an item of the group, or nothing when all items
of the group have been picked before. The picks are what is seen of this from outside, possibly among others: between
two picks from a group, each other group that has items left is picked from exactly once.
-/

namespace IpfsCluster.Machine

open List

variable {α : Type}

/-- What visits of the groups in turn have picked. -/
structure Turns (groups : List (List α)) (visits : List (Option α)) : Prop where
  own : ∀ {k : ℕ} {item}, visits[k]? = some (some item) →
    ∃ group, groups[k % groups.length]? = some group ∧ item ∈ group
  exhausted : ∀ {k : ℕ} {group}, visits[k]? = some none → groups[k % groups.length]? = some group →
    ∀ item ∈ group, ∃ earlier < k, visits[earlier]? = some (some item)
  fresh : visits.reduceOption.Nodup

/-- The picks from groups that take turns, in the order of the groups, which may be among other picks. -/
structure RoundRobin [DecidableEq α] (groups : List (List α)) (picks : List α) : Prop where
  /-- The first pick is from the first group that has items. -/
  start : ∀ {before first after} {i : ℕ} {group}, picks = before ++ first :: after → groups[i]? = some group →
    first ∈ group → (∀ item ∈ before, ∀ other ∈ groups, item ∉ other) →
    ∀ skipped < i, ∀ other, groups[skipped]? = some other → other = []
  /-- After a pick from a group, the next one is from the first group behind it, cyclically, that has items left. -/
  next : ∀ {before first between second after} {i j : ℕ} {group other},
    picks = before ++ first :: (between ++ second :: after) → groups[i]? = some group → first ∈ group →
    groups[j]? = some other → second ∈ other → (∀ item ∈ between, ∀ other ∈ groups, item ∉ other) →
    ∃ skipped, j = (i + skipped + 1) % groups.length ∧
      ∀ offset < skipped, ∀ other, groups[(i + offset + 1) % groups.length]? = some other →
        ∀ item ∈ other, item ∈ before ++ [first]
  /-- Between two consecutive picks from a group, every other group that had items left at the first of them is
  picked from exactly once. -/
  once : ∀ {before first between second after} {i j : ℕ} {group other},
    picks = before ++ first :: (between ++ second :: after) → groups[i]? = some group → first ∈ group →
    second ∈ group → (∀ item ∈ between, item ∉ group) → groups[j]? = some other → j ≠ i →
    (∃ item ∈ other, item ∉ before) → between.countP (· ∈ other) = 1

namespace Turns

variable {groups : List (List α)} {visits : List (Option α)}

theorem nil : Turns groups [] where
  own visited := by cases visited
  exhausted visited := by cases visited
  fresh := nodup_nil

variable {group other : List α} {item : α} {i j k n width : ℕ}

private theorem mem_picks : item ∈ visits.reduceOption ↔ ∃ k : ℕ, visits[k]? = some (some item) := by
  rw [reduceOption_mem_iff, mem_iff_getElem?]

private theorem concat_visit {last visit : Option α} (visited : (visits ++ [last])[k]? = some visit) :
    visits[k]? = some visit ∨ k = visits.length ∧ last = visit := by
  rw [getElem?_append] at visited
  split_ifs at visited with earlier
  · exact .inl visited
  · obtain ⟨within, rfl⟩ := List.getElem?_eq_some_iff.mp visited
    rw [length_singleton] at within
    exact .inr ⟨by omega, by simp⟩

theorem concat (turns : Turns groups visits) {visit : Option α}
    (current : groups[visits.length % groups.length]? = some group)
    (taken : ∀ item, visit = some item → item ∈ group ∧ item ∉ visits.reduceOption)
    (blank : visit = none → ∀ item ∈ group, item ∈ visits.reduceOption) : Turns groups (visits ++ [visit]) where
  own visited := by
    rcases concat_visit visited with earlier | ⟨rfl, same⟩
    · exact turns.own earlier
    · exact ⟨group, current, (taken _ same).1⟩
  exhausted visited at_turn item own := by
    have stays {k : ℕ} (picked : visits[k]? = some (some item)) : (visits ++ [visit])[k]? = some (some item) := by
      rwa [getElem?_append_left (List.getElem?_eq_some_iff.mp picked).1]
    rcases concat_visit visited with earlier | ⟨rfl, same⟩
    · obtain ⟨k, before, picked⟩ := turns.exhausted earlier at_turn item own
      exact ⟨k, before, stays picked⟩
    · obtain rfl := Option.mem_unique current at_turn
      obtain ⟨k, picked⟩ := mem_picks.mp (blank same item own)
      exact ⟨k, (List.getElem?_eq_some_iff.mp picked).1, stays picked⟩
  fresh := by
    rw [reduceOption_append, reduceOption_singleton]
    cases visit with
    | none => exact turns.fresh.append nodup_nil (disjoint_nil_right _)
    | some item => exact turns.fresh.append (nodup_singleton item) (disjoint_singleton.mpr (taken item rfl).2)

theorem index_eq (apart : groups.Pairwise List.Disjoint) (at_i : groups[i]? = some group)
    (at_j : groups[j]? = some other) (member : item ∈ group) (also : item ∈ other) : i = j := by
  obtain ⟨i_lt, rfl⟩ := List.getElem?_eq_some_iff.mp at_i
  obtain ⟨j_lt, rfl⟩ := List.getElem?_eq_some_iff.mp at_j
  by_contra different
  rcases Nat.lt_or_gt_of_ne different with before | behind
  · exact pairwise_iff_getElem.mp apart i j i_lt j_lt before member also
  · exact pairwise_iff_getElem.mp apart j i j_lt i_lt behind also member

/-- The visit that a pick was made by. -/
private theorem exists_visit {before after : List α} (split : visits.reduceOption = before ++ item :: after) :
    ∃ k, visits[k]? = some (some item) ∧ (visits.take k).reduceOption = before ∧
      (visits.drop (k + 1)).reduceOption = after := by
  obtain ⟨earlier, rest, rfl, same, restSame⟩ := (reduceOption_eq_append_iff _ _ _).mp split
  obtain ⟨single, later, rfl, one, laterSame⟩ := (reduceOption_eq_append_iff _ [item] after).mp restSame
  obtain ⟨blanks, more, rfl⟩ := (reduceOption_eq_singleton_iff _ _).mp one
  have parts : earlier ++ (List.replicate blanks none ++ some item :: List.replicate more none ++ later) =
      (earlier ++ List.replicate blanks none) ++ some item :: (List.replicate more none ++ later) := by simp
  refine ⟨(earlier ++ List.replicate blanks none).length, ?_, ?_, ?_⟩
  · rw [parts, getElem?_append_right le_rfl, Nat.sub_self, getElem?_cons_zero]
  · rw [parts, take_left, reduceOption_append, reduceOption_replicate_none, append_nil, same]
  · rw [parts, drop_length_add_append, drop_succ_cons, drop_zero, reduceOption_append, reduceOption_replicate_none,
      nil_append, laterSame]

private theorem mem_before : item ∈ (visits.take k).reduceOption ↔ ∃ n < k, visits[n]? = some (some item) := by
  simp [mem_picks, getElem?_take]

private theorem mem_between : item ∈ ((visits.drop (k + 1)).take width).reduceOption ↔
    ∃ offset < width, visits[k + 1 + offset]? = some (some item) := by
  rw [mem_before]
  simp only [getElem?_drop]

/-- Visits of one group are at least one round apart. -/
private theorem round_le (same : k % width = n % width) (earlier : k < n) : k + width ≤ n := by
  have round := Nat.le_of_dvd (Nat.sub_pos_of_lt earlier) ((Nat.modEq_iff_dvd' earlier.le).mp same)
  omega

/-- In less than one round, the turn of each other group comes. -/
private theorem exists_turn (turn : k % width = i) (i_lt : i < width) (j_lt : j < width) (different : j ≠ i) :
    ∃ offset, offset + 1 < width ∧ (k + 1 + offset) % width = j := by
  have reached : (k + (j + width - i) % width) % width = j := by
    rw [Nat.add_mod_mod, ← Nat.mod_add_mod, turn, show i + (j + width - i) = j + width by omega, Nat.add_mod_right,
      Nat.mod_eq_of_lt j_lt]
  have within := Nat.mod_lt (j + width - i) (Nat.zero_lt_of_lt i_lt)
  generalize (j + width - i) % width = distance at reached within
  cases distance with
  | zero => exact (different (reached.symm.trans turn)).elim
  | succ offset => exact ⟨offset, within, by rwa [Nat.add_assoc, Nat.add_comm 1]⟩

variable (turns : Turns groups visits)

include turns

theorem turn_eq (apart : groups.Pairwise List.Disjoint) (visited : visits[k]? = some (some item))
    (at_i : groups[i]? = some group) (member : item ∈ group) : k % groups.length = i := by
  obtain ⟨_, at_turn, own⟩ := turns.own visited
  exact index_eq apart at_turn at_i own member

private theorem not_mem_before (visited : visits[k]? = some (some item)) : item ∉ (visits.take k).reduceOption := by
  have fresh := turns.fresh
  rw [← take_append_drop k visits, reduceOption_append] at fresh
  exact fun earlier => disjoint_of_nodup_append fresh earlier (mem_picks.mpr ⟨0, by rwa [getElem?_drop]⟩)

/-- Visits that pick nothing of the groups find them without items left. -/
private theorem exhausted_of_blank (blank : ∀ n < width, ∀ item, visits[k + n]? = some (some item) →
      ∀ group ∈ groups, item ∉ group) (inside : n < width) (visited : k + n < visits.length)
    (current : groups[(k + n) % groups.length]? = some group) :
    ∀ item ∈ group, ∃ earlier < k, visits[earlier]? = some (some item) := by
  have nothing (n : ℕ) (inside : n < width) (item : α) : visits[k + n]? ≠ some (some item) := by
    intro picked
    obtain ⟨group, at_turn, own⟩ := turns.own picked
    exact blank n inside item picked group (mem_of_getElem? at_turn) own
  intro item own
  have here : visits[k + n]? = some none := by
    cases visit : visits[k + n] with
    | none => rw [getElem?_eq_getElem visited, visit]
    | some item => exact (nothing n inside item (by rw [getElem?_eq_getElem visited, visit])).elim
  obtain ⟨earlier, before, picked⟩ := turns.exhausted here current item own
  refine ⟨earlier, ?_, picked⟩
  by_contra late
  exact nothing (earlier - k) (by omega) item (by rwa [Nat.add_sub_cancel' (by omega)])

variable (apart : groups.Pairwise List.Disjoint) {first second : α} {before after : List α}

include apart

/-- A group with items left is not passed over: it is picked from again after one round. -/
private theorem width_between (picked : visits[k]? = some (some first)) (at_i : groups[i]? = some group)
    (member : first ∈ group) (again : visits[k + 1 + width]? = some (some second)) (own : second ∈ group)
    (apartFrom : ∀ item ∈ ((visits.drop (k + 1)).take width).reduceOption, item ∉ group) : width + 1 = groups.length := by
  have first_turn := turns.turn_eq apart picked at_i member
  have second_turn := turns.turn_eq apart again at_i own
  have round := round_le (first_turn.trans second_turn.symm) (by omega)
  by_contra longer
  have some_group := Nat.zero_lt_of_lt (List.getElem?_eq_some_iff.mp at_i).1
  have visited := Nat.lt_trans (show k + groups.length < k + 1 + width by omega) (List.getElem?_eq_some_iff.mp again).1
  have current : groups[(k + groups.length) % groups.length]? = some group := by rwa [Nat.add_mod_right, first_turn]
  cases visit : visits[k + groups.length] with
  | none =>
    obtain ⟨n, earlier, picked⟩ := turns.exhausted (by rw [getElem?_eq_getElem visited, visit]) current second own
    exact turns.not_mem_before again (mem_before.mpr ⟨n, by omega, picked⟩)
  | some item =>
    have picked : visits[k + 1 + (groups.length - 1)]? = some (some item) := by
      rw [show k + 1 + (groups.length - 1) = k + groups.length by omega, getElem?_eq_getElem visited, visit]
    refine apartFrom item (mem_between.mpr ⟨_, by omega, picked⟩) ?_
    obtain ⟨_, at_turn, own⟩ := turns.own picked
    rw [show k + 1 + (groups.length - 1) = k + groups.length by omega] at at_turn
    exact Option.mem_unique at_turn current ▸ own

theorem roundRobin [DecidableEq α] : RoundRobin groups visits.reduceOption where
  start := by
    intro before first after i group split at_i member others skipped lower other at_skipped
    obtain ⟨k, picked, rfl, rfl⟩ := exists_visit split
    have inside : skipped < k := Nat.lt_of_lt_of_le lower (turns.turn_eq apart picked at_i member ▸ Nat.mod_le _ _)
    have current : groups[(0 + skipped) % groups.length]? = some other := by
      rwa [Nat.zero_add, Nat.mod_eq_of_lt (List.getElem?_eq_some_iff.mp at_skipped).1]
    have exhausted := turns.exhausted_of_blank
      (fun n inside item visited => others item (mem_before.mpr ⟨n, inside, by rwa [Nat.zero_add] at visited⟩)) inside
      (by have := (List.getElem?_eq_some_iff.mp picked).1; omega) current
    refine eq_nil_iff_forall_not_mem.mpr fun item own => ?_
    obtain ⟨n, none, -⟩ := exhausted item own
    exact Nat.not_lt_zero n none
  next := by
    intro before first between second after i j group other split at_i member at_j second_member others
    obtain ⟨k, picked, rfl, rest⟩ := exists_visit split
    obtain ⟨width, again, rfl, -⟩ := exists_visit rest
    rw [getElem?_drop] at again
    have turn := turns.turn_eq apart picked at_i member
    have turn_after (offset : ℕ) : (i + offset + 1) % groups.length = (k + 1 + offset) % groups.length := by
      rw [← turn, Nat.add_assoc, Nat.mod_add_mod, Nat.add_assoc, Nat.add_comm 1]
    refine ⟨width, ?_, fun offset inside skipped current item own => ?_⟩
    · rw [turn_after, turns.turn_eq apart again at_j second_member]
    · rw [turn_after] at current
      obtain ⟨n, earlier, visited⟩ := turns.exhausted_of_blank
        (fun n inside item visited => others item (mem_between.mpr ⟨n, inside, visited⟩)) inside
        (by have := (List.getElem?_eq_some_iff.mp again).1; omega) current item own
      rcases Nat.lt_succ_iff_lt_or_eq.mp earlier with sooner | rfl
      · exact mem_append_left _ (mem_before.mpr ⟨n, sooner, visited⟩)
      · obtain rfl := Option.some.inj (Option.mem_unique visited picked)
        exact mem_append_right _ (mem_singleton_self _)
  once := by
    intro before first between second after i j group other split at_i member again apartFrom at_j different left
    obtain ⟨k, picked, rfl, rest⟩ := exists_visit split
    obtain ⟨width, visited, rfl, rfl⟩ := exists_visit rest
    rw [getElem?_drop] at visited
    have turn := turns.turn_eq apart picked at_i member
    have round := turns.width_between apart picked at_i member visited again apartFrom
    obtain ⟨offset, inside, reached⟩ := exists_turn turn (List.getElem?_eq_some_iff.mp at_i).1
      (List.getElem?_eq_some_iff.mp at_j).1 different
    have within : k + 1 + offset < visits.length := by
      have := (List.getElem?_eq_some_iff.mp visited).1
      omega
    have current : groups[(k + 1 + offset) % groups.length]? = some other := by rwa [reached]
    have here := getElem?_eq_getElem within
    generalize visits[k + 1 + offset] = visit at here
    cases visit with
    | none =>
      obtain ⟨item, own, unpicked⟩ := left
      obtain ⟨n, earlier, found⟩ := turns.exhausted here current item own
      have later : k ≤ n := by
        by_contra sooner
        exact unpicked (mem_before.mpr ⟨n, by omega, found⟩)
      have := round_le ((turns.turn_eq apart found at_j own).trans reached.symm) earlier
      omega
    | some item =>
      obtain ⟨_, at_turn, own⟩ := turns.own here
      obtain rfl := Option.mem_unique current at_turn
      have only : ∀ x ∈ ((visits.drop (k + 1)).take width).reduceOption, x ∈ other → x = item := by
        intro x listed inOther
        obtain ⟨n, near, found⟩ := mem_between.mp listed
        have same := (turns.turn_eq apart found at_j inOther).trans reached.symm
        obtain rfl : n = offset := by
          rcases Nat.lt_trichotomy n offset with sooner | same' | later
          · have := round_le same (by omega)
            omega
          · exact same'
          · have := round_le same.symm (by omega)
            omega
        exact Option.some.inj (Option.mem_unique found here)
      have fresh := turns.fresh
      rw [split, nodup_append, nodup_cons, nodup_append] at fresh
      refine Eq.trans (countP_congr fun x listed => ?_)
        (count_eq_one_of_mem fresh.2.1.2.1 (mem_between.mpr ⟨offset, by omega, here⟩))
      rw [decide_eq_true_iff, beq_iff_eq]
      exact ⟨only x listed, fun same => same ▸ own⟩

end Turns

section

variable {groups : List (List α)} {picks : List α} {keep : α → Bool}

private theorem filter_split {before between after : List α} {first second : α}
    (split : picks = before ++ first :: (between ++ second :: after)) (first_kept : keep first = true)
    (second_kept : keep second = true) :
    picks.filter keep = before.filter keep ++ first :: (between.filter keep ++ second :: after.filter keep) := by
  rw [split, filter_append, filter_cons_of_pos first_kept, filter_append, filter_cons_of_pos second_kept]

/-- A round robin among some of the picks is one among all of them. -/
theorem RoundRobin.of_filter [DecidableEq α] (fair : RoundRobin groups (picks.filter keep))
    (kept : ∀ group ∈ groups, ∀ item ∈ group, keep item = true) : RoundRobin groups picks where
  start := by
    intro before first after i group split at_i member others
    have filtered : picks.filter keep = before.filter keep ++ first :: after.filter keep := by
      rw [split, filter_append, filter_cons_of_pos (kept group (mem_of_getElem? at_i) first member)]
    exact fair.start filtered at_i member fun item picked => others item (mem_of_mem_filter picked)
  next := by
    intro before first between second after i j group other split at_i member at_j second_member others
    have filtered := filter_split split (kept group (mem_of_getElem? at_i) first member)
      (kept other (mem_of_getElem? at_j) second second_member)
    obtain ⟨skipped, reached, exhausted⟩ := fair.next filtered at_i member at_j second_member
      fun item picked => others item (mem_of_mem_filter picked)
    refine ⟨skipped, reached, fun offset inside other current item own => ?_⟩
    rcases mem_append.mp (exhausted offset inside other current item own) with earlier | same
    · exact mem_append_left _ (mem_of_mem_filter earlier)
    · exact mem_append_right _ same
  once := by
    intro before first between second after i j group other split at_i member again apartFrom at_j different left
    have listed := mem_of_getElem? at_i
    have filtered := filter_split split (kept group listed first member) (kept group listed second again)
    obtain ⟨item, own, unpicked⟩ := left
    have counted := fair.once filtered at_i member again
      (fun item picked => apartFrom item (mem_of_mem_filter picked)) at_j different
      ⟨item, own, fun picked => unpicked (mem_of_mem_filter picked)⟩
    rw [← counted, countP_filter]
    refine countP_congr fun x _ => ?_
    rw [Bool.and_eq_true, decide_eq_true_eq]
    exact ⟨fun inOther => ⟨inOther, kept other (mem_of_getElem? at_j) x inOther⟩, And.left⟩

end

end IpfsCluster.Machine
