import IpfsCluster.Model.Api.LBClient

/-! # What a request of the load-balancing client does

A request goes on until an outcome is decisive or its number of tries is used up. One step of `retry` either returns or
goes on with the next outcome; its counter is the number of calls made, as long as that is a machine integer.
-/

namespace IpfsCluster.Proofs.RestClient

open List Model.RestClient LoadBalancingClient RoundRobin

section

/-- No further try is made after success, after an error with a code, and after a foreign error. -/
def decisive : Option CallError → Bool
  | none => true
  | some (.foreign _) => true
  | some (.api code _) => code ≠ 0

/-- The number of calls that a request needs when it may make as many as the limit. -/
def wanted : (outcomes : ℕ → Option CallError) → (limit : ℕ) → ℕ
  | _, 0 => 0
  | outcomes, limit + 1 =>
    if limit = 0 ∨ decisive (outcomes 0) then 1 else wanted (fun call => outcomes (call + 1)) limit + 1

/-- A request that made some number of calls stopped where it has to, and returns the outcome of the last one. -/
structure Stops (outcomes : ℕ → Option CallError) (limit calls : ℕ) (err : Option CallError) : Prop where
  made : 0 < calls
  bounded : calls ≤ limit
  undecided : ∀ call, call + 1 < calls → decisive (outcomes call) = false
  last : decisive (outcomes (calls - 1)) = true ∨ calls = limit
  returned : err = outcomes (calls - 1)

variable {outcomes : ℕ → Option CallError} {limit calls : ℕ} {err : Option CallError}

theorem Stops.of_first (ends : limit = 0 ∨ decisive (outcomes 0) = true) : Stops outcomes (limit + 1) 1 (outcomes 0) where
  made := Nat.one_pos
  bounded := Nat.le_add_left 1 limit
  undecided call before := absurd before (by omega)
  last := ends.symm.imp id (by omega)
  returned := rfl

theorem stops_succ_iff (undecided : decisive (outcomes 0) = false) :
    Stops outcomes (limit + 1) (calls + 2) err ↔ Stops (fun call => outcomes (call + 1)) limit (calls + 1) err := by
  constructor
  · rintro ⟨-, bounded, before, last, returned⟩
    refine ⟨Nat.succ_pos calls, by omega, fun call earlier => before (call + 1) (by omega), ?_, returned⟩
    exact last.imp id (by omega)
  · rintro ⟨-, bounded, before, last, returned⟩
    refine ⟨Nat.succ_pos _, by omega, fun call earlier => ?_, last.imp id (by omega), returned⟩
    cases call with
    | zero => exact undecided
    | succ call => exact before call (by omega)

theorem Stops.eq_wanted (stops : Stops outcomes limit calls err) : calls = wanted outcomes limit := by
  induction limit generalizing outcomes calls with
  | zero => exact absurd stops.made (Nat.not_lt.mpr stops.bounded)
  | succ limit ih =>
    rw [wanted]
    split_ifs with ends
    · have single : ¬ 1 < calls := by
        intro more
        obtain rfl | decided := ends
        · exact absurd stops.bounded (by omega)
        · cases decided.symm.trans (stops.undecided 0 more)
      have made := stops.made
      omega
    · rw [not_or, Bool.not_eq_true] at ends
      obtain ⟨none_left, undecided⟩ := ends
      obtain _ | _ | calls := calls
      · exact absurd stops.made (Nat.lt_irrefl 0)
      · obtain decided | full := stops.last
        · cases decided.symm.trans undecided
        · omega
      · exact congrArg (· + 1) (ih ((stops_succ_iff undecided).mp stops))

end

variable {σ Client : Type}

/-- The strategy gives a client each of the times it is asked, with the counter going up. -/
def serves (strategy : LBStrategy σ Client) : ℕ → σ → Int64 → Bool
  | 0, _, _ => true
  | times + 1, state, count =>
    match strategy.next state count with
    | .error _ => false
    | .ok (_, state) => serves strategy times state (count + 1)

section

variable {outcomes : ℕ → Option CallError} {lc : LoadBalancingClient σ Client} {calls : List Client} {count : Int64}
  {tries : ℕ}

theorem retry_succ {client : Client} {state : σ} (given : lc.strategy.next lc.state count = .ok (client, state)) :
    lc.retry outcomes (tries + 1) calls count = if decisive (outcomes calls.length) = true ∨ count + 1 = lc.retries then
        some ⟨.ok (outcomes calls.length), calls ++ [client]⟩
      else retry outcomes tries { lc with state } (calls ++ [client]) (count + 1) := by
  rw [retry, given]
  dsimp only
  rcases outcomes calls.length with _ | ⟨code, message⟩ | message
  · rfl
  · by_cases named : code = 0
    · simp [decisive, named]
    · simp [decisive, named]
  · rfl

variable {err : Option CallError}

theorem last_of_retry {made : List Client} (returned : lc.retry outcomes tries calls count = some ⟨.ok err, made⟩) :
    made ≠ [] ∧ outcomes (made.length - 1) = err ∧ ∀ n, calls.length ≤ n → n + 1 < made.length → outcomes n ≠ none := by
  induction tries generalizing lc calls count with
  | zero => cases returned
  | succ tries ih =>
    cases given : lc.strategy.next lc.state count with
    | error text =>
      rw [retry, given] at returned
      cases returned
    | ok answer =>
      rw [retry_succ given] at returned
      split at returned
      · cases returned
        rw [length_append, length_singleton, Nat.add_sub_cancel]
        exact ⟨append_ne_nil_of_right_ne_nil _ (cons_ne_nil _ _), rfl, fun n _ _ => by omega⟩
      next undecided =>
        obtain ⟨some_made, last, failed⟩ := ih returned
        refine ⟨some_made, last, fun n reached earlier => ?_⟩
        obtain rfl | later := reached.eq_or_lt
        · intro succeeded
          rw [succeeded] at undecided
          exact undecided (.inl rfl)
        · exact failed n (by rw [length_append, length_singleton]; exact later) earlier

theorem serves_succ {strategy : LBStrategy σ Client} {times : ℕ} {state : σ} :
    serves strategy (times + 1) state count = true ↔ ∃ client after, strategy.next state count = .ok (client, after) ∧
        serves strategy times after (count + 1) = true := by
  rw [serves]
  cases strategy.next state count with
  | error text => simp
  | ok given =>
    obtain ⟨client, after⟩ := given
    simp

theorem serves_of_retry {made : List Client} (returned : lc.retry outcomes tries calls count = some ⟨.ok err, made⟩) :
    ∃ more, made = calls ++ more ∧ more ≠ [] ∧ serves lc.strategy more.length lc.state count = true := by
  induction tries generalizing lc calls count with
  | zero => cases returned
  | succ tries ih =>
    cases given : lc.strategy.next lc.state count with
    | error text =>
      rw [retry, given] at returned
      cases returned
    | ok pair =>
      obtain ⟨client, state⟩ := pair
      rw [retry_succ given] at returned
      split_ifs at returned with ends
      · cases returned
        exact ⟨[client], rfl, cons_ne_nil client [], serves_succ.mpr ⟨client, state, given, rfl⟩⟩
      · obtain ⟨more, rfl, -, served⟩ := ih returned
        refine ⟨client :: more, ?_, cons_ne_nil client more, serves_succ.mpr ⟨client, state, given, served⟩⟩
        rw [append_assoc, singleton_append]

theorem retry_mono {answer : Answer Client} {more : ℕ} (ended : lc.retry outcomes tries calls count = some answer)
    (enough : tries ≤ more) : lc.retry outcomes more calls count = some answer := by
  induction tries generalizing lc calls count more with
  | zero => cases ended
  | succ tries ih =>
    obtain ⟨more, rfl⟩ := Nat.exists_eq_add_of_lt (Nat.lt_of_succ_le enough)
    cases given : lc.strategy.next lc.state count with
    | error text =>
      rw [retry, given] at ended ⊢
      exact ended
    | ok pair =>
      rw [retry_succ given] at ended ⊢
      split_ifs at ended ⊢ with ends
      · exact ended
      · exact ih ended (Nat.le_add_right tries more)

theorem ofNat_succ (n : ℕ) : Int64.ofNat (n + 1) = Int64.ofNat n + 1 := Int64.ofNat_add n 1

theorem ofNat_length_concat (calls : List Client) (client : Client) :
    Int64.ofNat (calls ++ [client]).length = Int64.ofNat calls.length + 1 := by
  rw [length_append, length_singleton, ofNat_succ]

variable {retries : Int64}

theorem ofNat_eq_iff {n : ℕ} (small : n < 2 ^ 63) : Int64.ofNat n = retries ↔ n = retries.toInt := by
  rw [← Int64.toInt_inj, Int64.toInt_ofNat_of_lt small]

variable {left : ℕ}

theorem succ_eq_retries_iff {made : ℕ} (rest : (made + (left + 1) : ℕ) = retries.toInt) :
    Int64.ofNat made + 1 = retries ↔ left = 0 := by
  have small := retries.toInt_lt
  rw [← ofNat_succ, ofNat_eq_iff (by omega)]
  omega

theorem retry_stops (rest : (calls.length + (left + 1) : ℕ) = lc.retries.toInt)
    (served : serves lc.strategy (wanted (fun call => outcomes (calls.length + call)) (left + 1)) lc.state
      (Int64.ofNat calls.length) = true) :
    ∃ more err, lc.retry outcomes (left + 1) calls (Int64.ofNat calls.length) = some ⟨.ok err, calls ++ more⟩ ∧
      Stops (fun call => outcomes (calls.length + call)) (left + 1) more.length err := by
  induction left generalizing lc calls with
  | zero =>
    obtain ⟨client, state, given, -⟩ := serves_succ.mp served
    refine ⟨[client], _, ?_, Stops.of_first (.inl rfl)⟩
    rw [retry_succ given, if_pos (.inr ((succ_eq_retries_iff rest).mpr rfl))]
    rfl
  | succ left ih =>
    rw [wanted, Nat.add_zero calls.length] at served
    cases decided : decisive (outcomes calls.length) with
    | true =>
      rw [if_pos (.inr decided)] at served
      obtain ⟨client, state, given, -⟩ := serves_succ.mp served
      refine ⟨[client], _, ?_, Stops.of_first (.inr decided)⟩
      rw [retry_succ given, if_pos (.inl decided)]
      rfl
    | false =>
      rw [decided, if_neg (by simp)] at served
      obtain ⟨client, state, given, served⟩ := serves_succ.mp served
      have length : (calls ++ [client]).length = calls.length + 1 := length_append
      have shifted : (fun call => outcomes (calls.length + (call + 1))) =
          fun call => outcomes ((calls ++ [client]).length + call) := by
        funext call
        rw [length, Nat.add_assoc, Nat.add_comm 1]
      rw [shifted, ← ofNat_length_concat calls client] at served
      obtain ⟨more, err, returned, stops⟩ :=
        @ih { lc with state } (calls ++ [client]) (by rw [← rest, length, Nat.add_assoc, Nat.add_comm 1]) served
      have undecided : ¬ (decisive (outcomes calls.length) = true ∨ Int64.ofNat calls.length + 1 = lc.retries) := by
        rw [decided, succ_eq_retries_iff rest]
        simp
      refine ⟨client :: more, err, ?_, ?_⟩
      · rw [retry_succ given, if_neg undecided, ← ofNat_length_concat, returned, append_assoc, singleton_append]
      · rw [← shifted] at stops
        obtain ⟨fewer, same⟩ := Nat.exists_eq_succ_of_ne_zero stops.made.ne'
        rw [same] at stops
        rw [length_cons, same]
        exact (stops_succ_iff decided).mpr stops

def limit (retries : Int64) : ℕ := max 1 retries.toInt.toNat

theorem limit_of_pos (some_retries : 0 < retries.toInt) : (limit retries : ℤ) = retries.toInt := by
  rw [limit]
  omega

theorem limit_of_nonpos (no_retries : retries.toInt ≤ 0) : limit retries = 1 := by
  rw [limit]
  omega

theorem request_one_of_undecided (no_retries : lc.retries.toInt ≤ 0) (undecided : decisive (outcomes 0) = false)
    (served : serves lc.strategy 1 lc.state 0 = true) : lc.request outcomes 1 = none := by
  obtain ⟨client, state, given, -⟩ := serves_succ.mp served
  have other : (0 : Int64) + 1 ≠ lc.retries := by
    intro same
    rw [← same] at no_retries
    exact absurd no_retries (by decide)
  rw [request, retry_succ given, if_neg (not_or.mpr ⟨by simp [undecided], other⟩), retry]

theorem request_stops (goes : 0 < lc.retries.toInt ∨ decisive (outcomes 0) = true)
    (served : serves lc.strategy (wanted outcomes (limit lc.retries)) lc.state 0 = true) :
    ∃ calls err, lc.request outcomes (limit lc.retries) = some ⟨.ok err, calls⟩ ∧
      Stops outcomes (limit lc.retries) calls.length err := by
  obtain some_retries | no_retries := lt_or_ge 0 lc.retries.toInt
  · have exact_limit := limit_of_pos some_retries
    obtain ⟨left, same⟩ := Nat.exists_eq_succ_of_ne_zero (n := limit lc.retries) (by omega)
    have unshifted : (fun call => outcomes (([] : List Client).length + call)) = outcomes := by
      funext call
      rw [length_nil, Nat.zero_add]
    rw [same] at served exact_limit ⊢
    obtain ⟨more, err, returned, stops⟩ := @retry_stops _ _ outcomes lc [] left
      (by rw [length_nil, Nat.zero_add, ← exact_limit]) (by rw [unshifted]; exact served)
    rw [unshifted] at stops
    exact ⟨more, err, returned, stops⟩
  · have decided := goes.resolve_left (not_lt.mpr no_retries)
    rw [limit_of_nonpos no_retries] at served ⊢
    rw [wanted, if_pos (.inl rfl)] at served
    obtain ⟨client, state, given, -⟩ := serves_succ.mp served
    refine ⟨[client], outcomes 0, ?_, Stops.of_first (.inl rfl)⟩
    rw [request, retry_succ given, if_pos (.inl decided)]
    rfl

variable {clients : List Client} {times : ℕ} {r : RoundRobin Client}

theorem next_roundRobin (count : Int64) (some_length : r.length ≠ 0) (in_range : r.length.toNat ≤ r.clients.length) :
    ∃ client, r.next count = .ok (client, { r with counter := r.counter + 1 }) ∧
      r.clients[((r.counter + 1) % r.length).toNat]? = some client := by
  have small : ((r.counter + 1) % r.length).toNat < r.clients.length := by
    rw [UInt32.toNat_mod]
    refine lt_of_lt_of_le (Nat.mod_lt _ (Nat.pos_of_ne_zero fun zero => some_length ?_)) in_range
    exact UInt32.toNat_inj.mp zero
  refine ⟨r.clients[((r.counter + 1) % r.length).toNat], ?_, getElem?_eq_getElem small⟩
  rw [RoundRobin.next, if_neg some_length, getElem?_eq_getElem small]

def consecutive (strategy : LBStrategy σ Client) : (counts : ℕ → Int64) → ℕ → σ → Except String (List Client)
  | _, 0, _ => .ok []
  | counts, times + 1, state =>
    match strategy.next state (counts 0) with
    | .error text => .error text
    | .ok (client, state) => (consecutive strategy (fun n => counts (n + 1)) times state).map (client :: ·)

theorem consecutive_roundRobin (counts : ℕ → Int64) (times : ℕ) (some_length : r.length ≠ 0)
    (in_range : r.length.toNat ≤ r.clients.length) :
    ∃ called, consecutive strategy counts times r = .ok called ∧ called.map some =
        (List.range times).map fun i => r.clients[((r.counter + 1).toNat + i) % 2 ^ 32 % r.length.toNat]? := by
  induction times generalizing r counts with
  | zero => exact ⟨[], rfl, rfl⟩
  | succ times ih =>
    obtain ⟨client, given, here⟩ := next_roundRobin (counts 0) some_length in_range
    obtain ⟨called, rest, there⟩ :=
      ih (r := { r with counter := r.counter + 1 }) (fun n => counts (n + 1)) some_length in_range
    have first : ((r.counter + 1).toNat + 0) % 2 ^ 32 = (r.counter + 1).toNat :=
      Nat.mod_eq_of_lt (r.counter + 1).toNat_lt
    have later (n : ℕ) : ((r.counter + 1).toNat + (n + 1)) % 2 ^ 32 = ((r.counter + 1 + 1).toNat + n) % 2 ^ 32 := by
      rw [UInt32.toNat_add (r.counter + 1), Nat.mod_add_mod, add_right_comm, add_assoc]
      rfl
    refine ⟨client :: called, ?_, ?_⟩
    · have given : strategy.next r (counts 0) = _ := given
      rw [consecutive, given]
      dsimp only
      rw [rest]
      rfl
    · rw [map_cons, there, range_succ_eq_map, map_cons, first, ← UInt32.toNat_mod, here]
      simp only [map_map, Function.comp_def, Nat.succ_eq_add_one, later]

theorem serves_roundRobin_iff (asked : 0 < times) :
    serves strategy times (r.setClients clients) count = true ↔ ¬ 2 ^ 32 ∣ clients.length := by
  have kept : (UInt32.ofNat clients.length).toNat = clients.length % 2 ^ 32 := UInt32.toNat_ofNat'
  have zero_iff : UInt32.ofNat clients.length = 0 ↔ 2 ^ 32 ∣ clients.length := by
    rw [← UInt32.toNat_inj, kept, Nat.dvd_iff_mod_eq_zero]
    rfl
  rw [← zero_iff]
  constructor
  · intro served zero
    obtain ⟨times, rfl⟩ := Nat.exists_eq_succ_of_ne_zero asked.ne'
    obtain ⟨client, after, given, -⟩ := serves_succ.mp served
    change RoundRobin.next _ count = _ at given
    rw [RoundRobin.next, setClients, if_pos zero] at given
    cases given
  · intro some_length
    clear asked
    induction times generalizing r count with
    | zero => rfl
    | succ times ih =>
      obtain ⟨client, given, -⟩ := next_roundRobin (r := r.setClients clients) count some_length (kept ▸ Nat.mod_le _ _)
      exact serves_succ.mpr ⟨client, _, given, ih (r := { r with counter := r.counter + 1 })⟩

theorem serves_failover {f : Failover Client} {made : ℕ} (nonempty : clients ≠ []) (small : made + times ≤ 2 ^ 63) :
    serves Failover.strategy times (f.setClients clients) (Int64.ofNat made) = true := by
  induction times generalizing made with
  | zero => rfl
  | succ times ih =>
    have some_clients : 0 < clients.length := length_pos_of_ne_nil nonempty
    have index : (Int64.ofNat made).toInt.tmod clients.length = (made % clients.length : ℕ) := by
      rw [Int64.toInt_ofNat_of_lt (by omega)]
      exact Int.natCast_mod made clients.length
    refine serves_succ.mpr ⟨clients.get ⟨made % clients.length, Nat.mod_lt made some_clients⟩, ⟨clients⟩, ?_, ?_⟩
    · change Failover.next ⟨clients⟩ _ = _
      rw [Failover.next, if_neg some_clients.ne', index, if_neg (by omega), Int.toNat_natCast,
        getElem?_eq_getElem (Nat.mod_lt made some_clients)]
      rfl
    · rw [← ofNat_succ]
      exact ih (by omega)

end

end IpfsCluster.Proofs.RestClient
