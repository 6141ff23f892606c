import IpfsCluster.Proofs.Api.LBClient
import Mathlib.Data.UInt

/-! # Retries of the load-balancing client

A request makes at most as many calls as there are retries, if retries are configured. With none configured its counter,
which starts at one after the first call, is never met: errors without a code are then retried without a bound.
-/

namespace IpfsCluster.Soundness

open Model.RestClient Proofs.RestClient List Failover

variable {σ Client : Type}

/-- For every number of retries, strategy and sequence of outcomes: a request makes no more calls than its limit,
stops at the first decisive outcome and returns the outcome of its last call, exactly if there are retries or the
first outcome is decisive, and the strategy gives a client for each of those calls. -/
theorem retry_stops_iff (lc : LoadBalancingClient σ Client) (outcomes : ℕ → Option CallError) :
    (∃ calls err, (∀ tries, limit lc.retries ≤ tries → lc.request outcomes tries = some ⟨.ok err, calls⟩) ∧
        Stops outcomes (limit lc.retries) calls.length err) ↔ (0 < lc.retries.toInt ∨ decisive (outcomes 0) = true) ∧
        serves lc.strategy (wanted outcomes (limit lc.retries)) lc.state 0 = true := by
  constructor
  · rintro ⟨calls, err, returned, stops⟩
    have ended := returned _ le_rfl
    obtain ⟨more, rfl, -, served⟩ := serves_of_retry ended
    rw [stops.eq_wanted] at served
    refine ⟨?_, served⟩
    by_contra neither
    rw [not_or, not_lt, Bool.not_eq_true] at neither
    obtain ⟨no_retries, undecided⟩ := neither
    rw [limit_of_nonpos no_retries] at ended served
    rw [wanted, if_pos (.inl rfl)] at served
    cases (request_one_of_undecided no_retries undecided served).symm.trans ended
  · rintro ⟨goes, served⟩
    obtain ⟨calls, err, returned, stops⟩ := request_stops goes served
    exact ⟨calls, err, fun tries enough => retry_mono returned enough, stops⟩

section

variable {clients : List Client}

/-- Failover has a client for each of the first `2 ^ 63` tries of a request, before its counter turns negative, exactly if
it has clients; round robin has one for every try exactly if the number of its clients is not a multiple of `2 ^ 32`. -/
theorem strategies_serve_iff (f : Failover Client) (r : RoundRobin Client) (clients : List Client) {tries : ℕ}
    (some_tries : 0 < tries) : (tries ≤ 2 ^ 63 → (serves strategy tries (f.setClients clients) 0 = true ↔ clients ≠ []))
    ∧
      (serves RoundRobin.strategy tries (r.setClients clients) 0 = true ↔ ¬ 2 ^ 32 ∣ clients.length) := by
  refine ⟨fun few => ⟨?_, fun nonempty => ?_⟩, serves_roundRobin_iff some_tries⟩
  · rintro served rfl
    obtain ⟨tries, rfl⟩ := Nat.exists_eq_succ_of_ne_zero some_tries.ne'
    cases served
  · exact @serves_failover _ _ _ f 0 nonempty (by omega)

theorem strategies_serve_iff_three : serves strategy 3 (setClients ⟨[]⟩ ["a", "b"]) 0 = true ∧
      serves RoundRobin.strategy 3 (RoundRobin.setClients { counter := 2 ^ 32 - 2 } ["a", "b"]) 0 = true :=
  have served := strategies_serve_iff ⟨[]⟩ { counter := 2 ^ 32 - 2 } ["a", "b"] (show 0 < 3 by decide)
  ⟨(served.1 (by decide)).mpr (by decide), served.2.mpr (by decide)⟩

theorem wrapped_inj {modulus n start i j : ℕ} (fits : n ∣ modulus ∨ start + n ≤ modulus) (left : i < n) (right : j < n)
    (same : (start + i) % modulus % n = (start + j) % modulus % n) : i = j := by
  have residues : (start + i) % n = (start + j) % n := by
    rcases fits with divides | inside
    · rwa [Nat.mod_mod_of_dvd _ divides, Nat.mod_mod_of_dvd _ divides] at same
    · rwa [Nat.mod_eq_of_lt (by omega : start + i < modulus), Nat.mod_eq_of_lt (by omega : start + j < modulus)] at same
  exact Nat.ModEq.eq_of_lt_of_lt (Nat.ModEq.add_left_cancel rfl residues) left right

/-- The calls before and after the wrap meet unless the last number before it is the last of its cycle. -/
theorem fits_of_wrapped_inj {modulus n start : ℕ} (below : start < modulus) (small : n ≤ modulus)
    (inj : ∀ i < n, ∀ j < n, (start + i) % modulus % n = (start + j) % modulus % n → i = j) :
    n ∣ modulus ∨ start + n ≤ modulus := by
  by_contra neither
  rw [not_or, not_le] at neither
  obtain ⟨indivisible, wraps⟩ := neither
  obtain ⟨k, isWrap⟩ : ∃ k, k = modulus - start := ⟨_, rfl⟩
  have positive : 0 < n := by omega
  have split := Nat.mod_add_div (modulus - 1) n
  obtain ⟨v, isLast⟩ : ∃ v, v = (modulus - 1) % n := ⟨_, rfl⟩
  have inside : v < n := isLast ▸ Nat.mod_lt _ positive
  rw [← isLast] at split
  have not_last : v + 1 ≠ n := fun last => indivisible ⟨(modulus - 1) / n + 1, by rw [Nat.mul_succ]; omega⟩
  have before (j : ℕ) (early : j ≤ v) (called : j < k) : (start + (k - 1 - j)) % modulus % n = v - j := by
    have number : start + (k - 1 - j) = v - j + n * ((modulus - 1) / n) := by omega
    rw [Nat.mod_eq_of_lt (by omega : start + (k - 1 - j) < modulus), number, Nat.add_mul_mod_self_left]
    exact Nat.mod_eq_of_lt (by omega)
  have after (t : ℕ) (called : k + t < n) : (start + (k + t)) % modulus % n = t := by
    rw [show start + (k + t) = t + modulus by omega, Nat.add_mod_right, Nat.mod_eq_of_lt (by omega : t < modulus)]
    exact Nat.mod_eq_of_lt (by omega)
  by_cases meets : k + v < n
  · have same := inj (k - 1 - 0) (by omega) (k + v) meets ((before 0 (by omega) (by omega)).trans (after v meets).symm)
    omega
  · have left := before (v - (n - k - 1)) (by omega) (by omega)
    have right := after (n - k - 1) (by omega)
    rw [Nat.sub_sub_self (by omega : n - k - 1 ≤ v)] at left
    have same := inj _ (by omega) _ (by omega) (left.trans right.symm)
    omega

/-- Elements picked at as many positions as there are are different exactly if the list has no repetition and each
position is picked once. -/
theorem nodup_picked_iff {clients : List Client} {m : ℕ} {position : ℕ → ℕ} (inside : ∀ i, position i < m)
    (small : m ≤ clients.length) :
    ((range clients.length).map fun i => clients[position i]?).Nodup ↔ clients.Nodup ∧ clients.length ≤ m ∧
      ∀ i < clients.length, ∀ j < clients.length, position i = position j → i = j := by
  rw [nodup_map_iff_inj_on nodup_range]
  simp only [mem_range]
  constructor
  · intro different
    have inj : ∀ i < clients.length, ∀ j < clients.length, position i = position j → i = j :=
      fun i left j right same => different i left j right (congrArg (clients[·]?) same)
    have nodup : ((range clients.length).map position).Nodup :=
      (nodup_map_iff_inj_on nodup_range).mpr fun i left j right =>
        inj i (mem_range.mp left) j (mem_range.mp right)
    have below : (range clients.length).map position ⊆ range m := by
      intro _ member
      obtain ⟨i, -, rfl⟩ := mem_map.mp member
      exact mem_range.mpr (inside i)
    have picked := subperm_of_subset nodup below
    have all : clients.length ≤ m := by simpa using picked.length_le
    obtain rfl : clients.length = m := le_antisymm all small
    have perm := picked.perm_of_length_le (by simp)
    refine ⟨?_, le_rfl, inj⟩
    refine nodup_iff_getElem?_ne_getElem?.mpr fun a b lt bound same => ?_
    obtain ⟨i, left, rfl⟩ := mem_map.mp (perm.mem_iff.mpr (mem_range.mpr (lt.trans bound)))
    obtain ⟨j, right, rfl⟩ := mem_map.mp (perm.mem_iff.mpr (mem_range.mpr bound))
    rw [different i (mem_range.mp left) j (mem_range.mp right) same] at lt
    exact lt_irrefl _ lt
  · rintro ⟨distinct, all, inj⟩ i left j right same
    exact inj i left j right ((getElem?_inj ((inside i).trans_le small) distinct).mp same)

/-- As many consecutive calls as there are clients, at whatever counter, return different clients exactly if no client is
listed twice, the number of clients fits into 32 bits, and it divides `2 ^ 32` or the counter does not wrap around between
the calls. -/
theorem roundRobin_distinct_iff (r : RoundRobin Client) (clients : List Client) (counts : ℕ → Int64) :
    (∃ called, consecutive RoundRobin.strategy counts clients.length (r.setClients clients) = .ok called ∧
        called.length = clients.length ∧ called.Nodup) ↔ clients.Nodup ∧ clients.length < 2 ^ 32 ∧
        (clients.length ∣ 2 ^ 32 ∨ (r.counter + 1).toNat + clients.length ≤ 2 ^ 32) := by
  have below : (r.counter + 1).toNat < 2 ^ 32 := (r.counter + 1).toNat_lt
  rcases Nat.eq_zero_or_pos clients.length with empty | positive
  · obtain rfl := length_eq_zero_iff.mp empty
    exact iff_of_true ⟨[], rfl, rfl, nodup_nil⟩ ⟨nodup_nil, Nat.two_pow_pos 32, .inr below.le⟩
  have kept : (UInt32.ofNat clients.length).toNat = clients.length % 2 ^ 32 := UInt32.toNat_ofNat'
  by_cases zero : UInt32.ofNat clients.length = 0
  · -- The first division panics.
    obtain ⟨n, isSucc⟩ := Nat.exists_eq_succ_of_ne_zero positive.ne'
    refine iff_of_false ?_ fun ⟨_, small, _⟩ => ?_
    · rintro ⟨called, given, -⟩
      rw [isSucc, consecutive] at given
      have panics : RoundRobin.strategy.next (r.setClients clients) (counts 0) = .error divideByZero := if_pos zero
      rw [panics] at given
      cases given
    · rw [zero, Nat.mod_eq_of_lt small] at kept
      exact positive.ne kept
  · have some_length : 0 < (UInt32.ofNat clients.length).toNat :=
      Nat.pos_of_ne_zero fun none => zero (UInt32.toNat_inj.mp none)
    have few : (UInt32.ofNat clients.length).toNat ≤ clients.length := kept ▸ Nat.mod_le _ _
    obtain ⟨called, given, found⟩ := consecutive_roundRobin (r := r.setClients clients) counts clients.length zero few
    have length : called.length = clients.length := by simpa using congrArg length found
    have picked := nodup_picked_iff (fun i => Nat.mod_lt (((r.counter + 1).toNat + i) % 2 ^ 32) some_length) few
    have nodup_iff : called.Nodup ↔ _ :=
      ((nodup_map_iff (Option.some_injective Client)).symm.trans (by rw [found]; rfl)).trans picked
    constructor
    · rintro ⟨_, same, -, different⟩
      obtain rfl := Except.ok.inj (given.symm.trans same)
      obtain ⟨distinct, all, inj⟩ := nodup_iff.mp different
      have small : clients.length < 2 ^ 32 := lt_of_le_of_lt (all.trans kept.le) (Nat.mod_lt _ (by decide))
      rw [Nat.mod_eq_of_lt small] at kept
      rw [kept] at inj
      exact ⟨distinct, small, fits_of_wrapped_inj below small.le inj⟩
    · rintro ⟨distinct, small, fits⟩
      rw [Nat.mod_eq_of_lt small] at kept
      refine ⟨called, given, length, nodup_iff.mpr ⟨distinct, kept.ge, ?_⟩⟩
      rw [kept]
      exact fun i left j right => wrapped_inj fits left right

theorem roundRobin_repeats :
    consecutive RoundRobin.strategy (fun _ => 0) 3 (RoundRobin.setClients { counter := 2 ^ 32 - 2 } ["a", "b", "c"]) =
      .ok ["a", "a", "b"] :=
  rfl

end

theorem retry_unbounded : (⟨strategy, ⟨[()]⟩, 0⟩ : LoadBalancingClient (Failover Unit) Unit).request
        (fun call => if call < 2 then some (.api 0 "") else none) 3 = some ⟨.ok none, [(), (), ()]⟩ ∧ limit 0 = 1 :=
  ⟨rfl, rfl⟩

section

variable {Item : Type} {lc : LoadBalancingClient σ Client} {call : ℕ → StreamCall Item} {tries : ℕ}
  {answer : Answer Client} {out : List Item}

/-- A streaming request that returns no error ends with the first call without one, and gives the items of that call
exactly if no call before it sent any. -/
theorem stream_once_iff (streamed : lc.stream call tries = some (answer, out)) (returned : answer.result = .ok none) :
    ∃ last, answer.calls.length = last + 1 ∧ (call last).err = none ∧ (∀ n < last, (call n).err ≠ none) ∧
      (out = (call last).items ↔ ∀ n < last, (call n).items = []) := by
  obtain ⟨answer', requested, same⟩ := Option.map_eq_some_iff.mp streamed
  obtain ⟨rfl, rfl⟩ := Prod.mk.inj same
  obtain ⟨result, made⟩ := answer'
  obtain rfl : result = .ok none := returned
  obtain ⟨some_made, last, failed⟩ := last_of_retry requested
  obtain ⟨before, length⟩ := Nat.exists_eq_succ_of_ne_zero (length_pos_iff.mpr some_made).ne'
  dsimp only
  rw [length, Nat.succ_sub_one] at last
  refine ⟨before, length, last, fun n earlier => failed n (Nat.zero_le n) (by omega), ?_⟩
  rw [length, range_succ, flatMap_append, flatMap_singleton, append_left_eq_self, flatMap_eq_nil_iff]
  exact forall_congr' fun n => by rw [mem_range]

def breaksAfterOne (n : ℕ) : StreamCall ℕ := if n = 0 then ⟨[1], some (.api 0 "EOF")⟩ else ⟨[1, 2], none⟩

-- The default client gives an error without a code only before the first item, so these are calls of another client.
theorem stream_repeats : ((⟨strategy, ⟨["a", "b"]⟩, 2⟩ : LoadBalancingClient _ String).stream breaksAfterOne 2).map
      (fun result => (result.1.calls, result.2)) = some (["a", "b"], [1, 1, 2]) :=
  rfl

def refusesFirst (n : ℕ) : StreamCall ℕ := if n = 0 then ⟨[], some (.api 0 "refused")⟩ else ⟨[1, 2], none⟩

theorem stream_once_iff_refused :
    ∃ answer out, (⟨strategy, ⟨["a", "b"]⟩, 2⟩ : LoadBalancingClient _ String).stream refusesFirst 2 =
      some (answer, out) ∧ answer.calls = ["a", "b"] ∧ out = [1, 2] := by
  refine ⟨_, _, rfl, rfl, ?_⟩
  obtain ⟨last, length, -, -, once⟩ := @stream_once_iff _ _ _ ⟨strategy, ⟨["a", "b"]⟩, 2⟩ refusesFirst 2 _ _
    rfl rfl
  obtain rfl : 1 = last := Nat.succ.inj length
  exact once.mpr (by decide)

end

end IpfsCluster.Soundness
