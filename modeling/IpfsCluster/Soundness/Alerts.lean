import IpfsCluster.Proofs.Cluster.Alerts
import IpfsCluster.Soundness.Repin
import IpfsCluster.ToMathlib.LeastKey

/-! # Alerts

The peers of a cluster decide without talking to each other which of them repins the pins of a failed peer. The handler
of alerts leaves its loop when a ping alert arrives while repinning is disabled, or when the state or the peers cannot
be read for one.
-/

namespace IpfsCluster.Soundness

open Model Model.Api Proofs.Cluster Machine Option Finset LabeledMachine

/-- The peers are told the same list of peers and all trust each other. -/
structure Shared (peers : Finset PeerID) (view : PeerID → PeerView) : Prop where
  id : ∀ p ∈ peers, (view p).id = p
  listed : ∃ list, (∀ p ∈ peers, (view p).peers = .ok list) ∧ ∀ q, q ∈ list ↔ q ∈ peers
  trusted : ∀ p ∈ peers, ∀ q ∈ peers, (view p).isTrustedPeer q = true

/-- The checker that the peer makes when the excluded one fails answers that it is closest. -/
def FindsItselfClosest (blake2b : String → Distance) (exclude : PeerID) (ci : Cid) (c : PeerView) : Prop :=
  ∃ dc, c.distances exclude = .ok dc ∧ (dc.isClosest blake2b ci).1 = true

section

variable {blake2b : String → Distance} {peers : Finset PeerID} {view : PeerID → PeerView}

theorem findsItselfClosest_iff (shared : Shared peers view) {exclude p : PeerID} (remains : p ∈ peers.erase exclude)
    (ci : Cid) : FindsItselfClosest blake2b exclude ci (view p) ↔ ∀ q ∈ peers.erase exclude,
      (compare (Model.xor (blake2b ci.bytes) (blake2b p)) (Model.xor (blake2b ci.bytes) (blake2b q))).isLE := by
  obtain ⟨-, member⟩ := mem_erase.mp remains
  obtain ⟨list, listed, same⟩ := shared.listed
  obtain ⟨trusted, found, mem_trusted⟩ := mem_getTrustedPeers (listed p member) exclude
  have checker : (view p).distances exclude = .ok { localPeer := p, otherPeers := trusted } := by
    rw [PeerView.distances, found, shared.id p member]
    rfl
  have answer := (isClosest_spec (@remembers_empty blake2b p trusted) ci).1
  have others (q : PeerID) : q ∈ trusted ↔ q ∈ peers.erase exclude ∧ q ≠ p := by
    rw [mem_trusted, same, shared.id p member, mem_erase]
    constructor
    · rintro ⟨isPeer, other, kept, -⟩
      exact ⟨⟨kept, isPeer⟩, other⟩
    · rintro ⟨⟨kept, isPeer⟩, other⟩
      exact ⟨isPeer, other, kept, shared.trusted p member q isPeer⟩
  constructor
  · rintro ⟨dc, made, closest⟩ q either
    obtain rfl := Except.ok.inj (checker.symm.trans made)
    by_cases self : q = p
    · rw [self]
      exact Std.ReflCmp.isLE_rfl
    · exact answer.mp closest q ((others q).mpr ⟨either, self⟩)
  · intro lower
    exact ⟨_, checker, answer.mpr fun q isOther => lower q ((others q).mp isOther).1⟩

/-- When a peer remains, exactly one remaining peer finds itself closest to a CID. The answers of a
checker to any sequence of queries are those it gives with the empty cache it starts with. -/
theorem existsUnique_closest (blake2b : String → Distance) (peers : Finset PeerID) (view : PeerID → PeerView)
    (exclude : PeerID) (shared : Shared peers view) (collisionFree : Set.InjOn blake2b peers)
    (remains : (peers.erase exclude).Nonempty) :
    (∀ ci, ∃! p, p ∈ peers.erase exclude ∧ FindsItselfClosest blake2b exclude ci (view p)) ∧
      ∀ (c : PeerView) (dc : DistanceChecker), c.distances exclude = .ok dc → ∀ queries : List Cid,
        dc.answers blake2b queries = queries.map fun ci => (dc.isClosest blake2b ci).1 := by
  constructor
  · intro ci
    have distinct : Set.InjOn (fun p => Model.xor (blake2b ci.bytes) (blake2b p)) (peers.erase exclude) :=
      fun p pRemains q qRemains same =>
        collisionFree (mem_of_mem_erase pRemains) (mem_of_mem_erase qRemains) (xor_left_cancel same)
    obtain ⟨least, ⟨member, lower⟩, unique⟩ := ToMathlib.existsUnique_leastKey _ distinct remains
    refine ⟨least, ⟨member, (findsItselfClosest_iff shared member ci).mpr lower⟩, ?_⟩
    rintro other ⟨otherMember, closest⟩
    exact unique other ⟨otherMember, (findsItselfClosest_iff shared otherMember ci).mp closest⟩
  · intro c dc made queries
    obtain ⟨trusted, -, same⟩ := Golang.Fallible.result_bind_eq_ok.mp made
    cases same
    exact answers_eq_map (remembers_empty c.id trusted) queries

end

def digests (key : String) : Distance :=
  if key = "a" then
    #v[0x89, 0x28, 0xaa, 0xe6, 0x3c, 0x84, 0xd8, 0x7e, 0xa0, 0x98, 0x56, 0x4d, 0x1e, 0x03, 0xad, 0x81,
      0x3f, 0x10, 0x7a, 0xdd, 0x47, 0x4e, 0x56, 0xae, 0xdd, 0x28, 0x63, 0x49, 0xc0, 0xc0, 0x3e, 0xa4]
  else if key = "b" then
    #v[0x6e, 0x5c, 0x1f, 0x45, 0xcb, 0xaf, 0x19, 0xf9, 0x42, 0x30, 0xba, 0x35, 0x01, 0xc3, 0x78, 0xa5,
      0x33, 0x5a, 0xf7, 0x1a, 0x33, 0x1b, 0x5b, 0x5a, 0xed, 0x62, 0x79, 0x23, 0x32, 0x28, 0x8d, 0xc3]
  else
    #v[0x26, 0x40, 0x5e, 0x00, 0x03, 0xd6, 0x74, 0x7a, 0xd6, 0xc0, 0x4d, 0xb4, 0x92, 0xfe, 0x94, 0xec,
      0xe3, 0x34, 0xc8, 0x83, 0x75, 0xd9, 0x7a, 0xfc, 0xf9, 0x02, 0x67, 0x6e, 0x83, 0xd6, 0x71, 0x07]

def trusting (peers : List PeerID) (p : PeerID) : PeerView where
  id := p
  peers := .ok peers
  isTrustedPeer := fun _ => true

theorem shared_trusting (peers : List PeerID) : Shared peers.toFinset (trusting peers) where
  id := fun _ _ => rfl
  listed := ⟨peers, fun _ _ => rfl, fun _ => List.mem_toFinset.symm⟩
  trusted := fun _ _ _ _ => rfl

theorem existsUnique_closest_two : (∃! p, p ∈ ["a", "b", "failed"].toFinset.erase "failed" ∧
      FindsItselfClosest digests "failed" ⟨"cid"⟩ (trusting ["a", "b", "failed"] p)) ∧
    (DistanceChecker.answers digests { localPeer := "b", otherPeers := ["a"] } [⟨"cid"⟩, ⟨"a"⟩, ⟨"cid"⟩] =
      [true, false, true]) := by
  obtain ⟨unique, answers⟩ := existsUnique_closest digests ["a", "b", "failed"].toFinset (trusting ["a", "b", "failed"])
    "failed" (shared_trusting _) (by decide) (by decide)
  refine ⟨unique ⟨"cid"⟩, ?_⟩
  have made : (trusting ["a", "b", "failed"] "b").distances "failed" = .ok { localPeer := "b", otherPeers := ["a"] } := by
    rfl
  rw [answers _ _ made]
  decide +kernel

theorem no_closest_when_none_remains :
    ["a"].toFinset.Nonempty ∧ Shared ["a"].toFinset (trusting ["a"]) ∧ Set.InjOn digests ["a"].toFinset ∧
      ¬ ∃! p, p ∈ ["a"].toFinset.erase "a" ∧ FindsItselfClosest digests "a" ⟨"cid"⟩ (trusting ["a"] p) := by
  refine ⟨by decide, shared_trusting _, by decide, ?_⟩
  rintro ⟨p, ⟨remains, -⟩, -⟩
  exact notMem_empty p remains

section

variable {p : AlertsPeer} {source target : AlertsHandler} {events : List AlertsEvent}

theorem alert_step_eq_some {h next : AlertsHandler} {alrt : Alert} {view : AlertView}
    (step : (alertsLoop p).step h (.alert alrt view) = some next) :
    h.returned = false ∧ next = h.alertsHandler p view alrt := by
  change (if h.returned then none else some (h.alertsHandler p view alrt)) = some next at step
  split at step
  · cases step
  next running => exact ⟨Bool.eq_false_of_not_eq_true running, (some.inj step).symm⟩

theorem handled_of_run (ran : (alertsLoop p).run source events = some target) {before after : List AlertsEvent}
    {alrt : Alert} {view : AlertView} (split : events = before ++ .alert alrt view :: after) :
    ∃ h next, (alertsLoop p).run source before = some h ∧ (alertsLoop p).step h (.alert alrt view) = some next ∧
      Handled p h alrt view next := by
  rw [split, run_append] at ran
  obtain ⟨h, ranBefore, ranAfter⟩ := bind_eq_some_iff.mp ran
  obtain ⟨next, step, -⟩ := run_cons_eq_some.mp ranAfter
  obtain ⟨-, rfl⟩ := alert_step_eq_some step
  exact ⟨h, _, ranBefore, step, alertsHandler_handled⟩

theorem returned_of_run (returned : source.returned = true) (ran : (alertsLoop p).run source events = some target) :
    target.returned = true := by
  refine invariant_of_run (fun h => h.returned = true) ?_ returned ran
  intro h event next returned step
  cases event with
  | alert alrt view =>
    cases (alert_step_eq_some step).1.symm.trans returned
  | elsewhere consensus =>
    cases step
    exact returned
  | done =>
    change (if h.returned then none else some { h with returned := true }) = some next at step
    rw [returned] at step
    cases step

/-- The alerts that come up along a run do not end the loop. -/
def NoneEnds (p : AlertsPeer) (h : AlertsHandler) (event : AlertsEvent) : Prop :=
  ∀ alrt view, event = .alert alrt view → Survives p h alrt view

theorem exists_running_iff (running : source.returned = false) (undone : ∀ event ∈ events, event ≠ .done) :
    (∃ target, (alertsLoop p).run source events = some target ∧ target.returned = false) ↔
      (alertsLoop p).Meets (NoneEnds p) source events := by
  induction events generalizing source with
  | nil => exact iff_of_true ⟨source, rfl, running⟩ trivial
  | cons event rest ih =>
    obtain ⟨here, later⟩ := List.forall_mem_cons.mp undone
    cases event with
    | done => exact (here rfl).elim
    | elsewhere consensus =>
      have tail := @ih { source with consensus := consensus } running later
      constructor
      · intro runs
        refine ⟨fun _ _ other => (nomatch other), fun next step => ?_⟩
        cases step
        exact tail.mp runs
      · intro meets
        exact tail.mpr (meets.2 _ rfl)
    | alert alrt view =>
      have step : (alertsLoop p).step source (.alert alrt view) = some (source.alertsHandler p view alrt) := by
        change (if source.returned then none else some (source.alertsHandler p view alrt)) = _
        rw [running, if_neg Bool.false_ne_true]
      have survives := @alertsHandler_returned_iff p view source alrt running
      constructor
      · rintro ⟨target, ran, runs⟩
        obtain ⟨next, taken, tail⟩ := run_cons_eq_some.mp ran
        obtain rfl := mem_unique step taken
        have goesOn : (source.alertsHandler p view alrt).returned = false := by
          rw [← Bool.not_eq_true]
          intro returned
          cases runs.symm.trans (returned_of_run returned tail)
        refine ⟨fun _ _ same => ?_, fun next taken => ?_⟩
        · obtain ⟨rfl, rfl⟩ := AlertsEvent.alert.inj same
          exact survives.mp goesOn
        · obtain rfl := mem_unique step taken
          exact (ih goesOn later).mp ⟨target, tail, runs⟩
      · rintro ⟨alive, meets⟩
        obtain ⟨target, tail, runs⟩ := (ih (survives.mpr (alive alrt view rfl)) later).mpr (meets _ step)
        exact ⟨target, run_cons_eq_some.mpr ⟨_, step, tail⟩, runs⟩

end

/-- Until the context is done, the handler consumes every alert, records it and repins what it should,
exactly when no ping alert arrives while repinning is disabled or its state or peers cannot be read. -/
theorem alertsHandler_keeps_consuming_iff (p : AlertsPeer) (source : AlertsHandler) (events : List AlertsEvent)
    (running : source.returned = false) (undone : ∀ event ∈ events, event ≠ .done) :
    (∃ target, (alertsLoop p).run source events = some target ∧ target.returned = false ∧
      ∀ before alrt view after, events = before ++ .alert alrt view :: after →
        ∃ h next, (alertsLoop p).run source before = some h ∧ (alertsLoop p).step h (.alert alrt view) = some next ∧
          Handled p h alrt view next) ↔ (alertsLoop p).Meets (NoneEnds p) source events := by
  rw [← exists_running_iff running undone]
  constructor
  · rintro ⟨target, ran, runs, -⟩
    exact ⟨target, ran, runs⟩
  · rintro ⟨target, ran, runs⟩
    exact ⟨target, ran, runs, fun before alrt view after split => handled_of_run ran split⟩

def watcher : AlertsPeer where
  cluster := threePeers
  blake2b _ := Vector.replicate 32 0

def allPeers : AlertView where
  peers := { id := "a", peers := .ok ["a", "b", "c"], isTrustedPeer := fun _ => true }
  now _ := noon

def noPeers : AlertView := { allPeers with peers := { allPeers.peers with peers := .error (.text "no peers") } }

def pingOfC : Alert := { name := pingMetricName, peer := "c" }

theorem alertsHandler_returns_early :
    (alertsLoop { watcher with disableRepinning := true }).run {} [.alert pingOfC allPeers, .alert pingOfC allPeers] = none ∧
      (alertsLoop watcher).run { consensus := { outcomes := [some (.text "no state")] } }
        [.alert pingOfC allPeers, .alert pingOfC allPeers] = none ∧
      (alertsLoop watcher).run {} [.alert pingOfC noPeers, .alert pingOfC allPeers] = none ∧
      ((alertsLoop watcher).run {} [.alert pingOfC allPeers, .alert pingOfC allPeers]).isSome = true :=
  ⟨rfl, rfl, rfl, rfl⟩

theorem alertsHandler_keeps_consuming_iff_once :
    ∃ target, (alertsLoop watcher).run {} [.alert pingOfC allPeers] = some target ∧ target.returned = false := by
  obtain ⟨target, ran, runs, -⟩ := (alertsHandler_keeps_consuming_iff watcher {} [.alert pingOfC allPeers] rfl
    (fun event member other => nomatch (List.mem_singleton.mp member).symm.trans other)).mpr
    ⟨fun alrt view same => by
      obtain ⟨rfl, rfl⟩ := AlertsEvent.alert.inj same
      exact .inr (.inr ⟨rfl, ⟨{}, rfl⟩, ["a", "b", "c"], rfl⟩), fun _ _ => trivial⟩
  exact ⟨target, ran, runs⟩

end IpfsCluster.Soundness
