import IpfsCluster.Soundness.Requests
import IpfsCluster.Soundness.GlobalPinInfo
import IpfsCluster.Soundness.Status

/-! # Lists of pins

A list request should count the pins that pass all of its filters, with the status that they have when they are looked
up. When it names CIDs, the other filters are not applied and repeated CIDs are counted again. When it does not, the
members filter their own statuses before they are put together.
-/

namespace IpfsCluster.Soundness

open Model Model.Api Model.Pinsvc Model.PinTracker Golang Proofs.Api Proofs.Cluster Proofs.IpfsConn List Status Values

section

variable {cidString : Cid → String} {wanted : Cid → Status → Prop} {limit : ℕ} {counted : List PinStatus}

/-- The list counts each wanted pin once and with its status, and shows as many as it may. -/
structure ListsExactly (cidString : Cid → String) (wanted : Cid → Status → Prop) (limit : ℕ)
    (counted : List PinStatus) (pinList : PinList) : Prop where
  once : (counted.map (·.requestID)).Nodup
  same : ∀ id status, (∃ st ∈ counted, st.requestID = id ∧ st.status = status) ↔ ∃ h, cidString h = id ∧ wanted h status
  number : {h | ∃ status, wanted h status}.encard = pinList.count
  results : pinList.results.Sublist counted ∧ pinList.results.length = min limit pinList.count

variable {entries : List (Cid × Status)}

section

variable (distinct : Function.Injective cidString) (perm : (counted.map entry).Perm (entries.map fun e => (cidString e.1, e.2)))

include distinct perm

theorem mem_entries_iff_counted (h : Cid) (status : Status) : (h, status)
    ∈ entries ↔ ∃ st ∈ counted, st.requestID = cidString h ∧ st.status = status := by
  have mapped : (h, status) ∈ entries ↔ (cidString h, status) ∈ entries.map fun e => (cidString e.1, e.2) := by
    rw [mem_map]
    constructor
    · intro member
      exact ⟨(h, status), member, rfl⟩
    · rintro ⟨⟨h', status'⟩, member, same⟩
      obtain ⟨sameText, rfl⟩ := Prod.mk.inj same
      obtain rfl := distinct sameText
      exact member
  rw [mapped, ← perm.mem_iff, mem_map]
  simp only [entry, Prod.mk.injEq]

theorem listsExactly_iff : ListsExactly cidString wanted limit counted ⟨counted.length, counted.take limit⟩ ↔
      (entries.map Prod.fst).Nodup ∧ ∀ h status, (h, status) ∈ entries ↔ wanted h status := by
  have ids : (counted.map (·.requestID)).Perm ((entries.map Prod.fst).map cidString) := by
    have fsts := perm.map Prod.fst
    rw [map_map, map_map] at fsts
    rw [map_map]
    exact fsts
  constructor
  · intro exact_list
    refine ⟨List.Nodup.of_map cidString (ids.nodup_iff.mp exact_list.once), fun h status => ?_⟩
    rw [mem_entries_iff_counted distinct perm, exact_list.same]
    constructor
    · rintro ⟨h', sameText, isWanted⟩
      exact distinct sameText ▸ isWanted
    · intro isWanted
      exact ⟨h, rfl, isWanted⟩
  · rintro ⟨once, same⟩
    refine ⟨ids.nodup_iff.mpr (once.map distinct), fun id status => ?_, ?_, take_sublist limit counted, length_take⟩
    · constructor
      · rintro ⟨st, member, rfl, rfl⟩
        obtain ⟨h, -, sameText⟩ := mem_map.mp (ids.mem_iff.mp (mem_map_of_mem member))
        refine ⟨h, sameText, (same h st.status).mp ?_⟩
        exact (mem_entries_iff_counted distinct perm h st.status).mpr ⟨st, member, sameText.symm, rfl⟩
      · rintro ⟨h, rfl, isWanted⟩
        exact (mem_entries_iff_counted distinct perm h status).mp ((same h status).mpr isWanted)
    · have wantedCids : {h | ∃ status, wanted h status} = ((entries.map Prod.fst).toFinset : Set Cid) := by
        ext h
        simp [← same]
      have sameLength := perm.length_eq
      rw [length_map, length_map] at sameLength
      rw [wantedCids, Set.encard_coe_eq_coe_finsetCard, toFinset_card_of_nodup once, length_map, sameLength]

end

end

section

/-- All filters of a request except for the CIDs. -/
def accepts (library : TextLibrary) (opts : ListOptions) (st : PinStatus) : Bool :=
  st.status.matchesFilter opts.status && opts.selects library st

/-- The answer of `getPin` for a CID that has a status. -/
def Reported (client : StatusClient) (codecs : TextCodecs) (order : MapOrder) (h : Cid) (st : PinStatus) : Prop :=
  getPinOf client codecs order h = { resp := some st }

/-- The pin has the status when it is looked up, and passes all filters of the request. -/
def Wanted (client : StatusClient) (codecs : TextCodecs) (library : TextLibrary) (order : MapOrder) (opts : ListOptions)
    (h : Cid) (status : Status) : Prop :=
  (opts.cids = [] ∨ h ∈ opts.cids) ∧
    ∃ st, Reported client codecs order h st ∧ accepts library opts st = true ∧ st.status = status

/-- No call fails. -/
structure Succeeds (c : Collector) (now : Clock) (consensus : Consensus) (trackers : PinTrackers)
    (members : List PeerID) : Prop where
  members : c.members = .ok members
  status : ∀ h, ∃ gpi, c.status now consensus trackers h = .ok gpi
  trackerStatus : ∀ p h, ∃ info, trackers.status p h = .ok info
  trackerStatusAll : ∀ p filter, (trackers.statusAll p filter).2 = none

variable {client : StatusClient} {codecs : TextCodecs} {library : TextLibrary} {order : MapOrder} {opts : ListOptions}
  {told : Cid → GlobalPinInfo}

theorem reported_iff (answered : ∀ h, client.status h = .ok (told h)) {h : Cid} {st : PinStatus} :
    Reported client codecs order h st ↔
      st = globalPinInfoToSvcPinStatus order (codecs.cidString h) (told h) ∧ svcStatus (told h) ≠ undefined := by
  unfold Reported getPinOf
  rw [getPinSvcStatus_of_answered answered]
  dsimp only
  rw [status_svcPinStatus]
  split
  next missing =>
    refine iff_of_false (fun found => ?_) fun known => known.2 missing
    cases congrArg Reply.resp found
  next known =>
    constructor
    · intro found
      exact ⟨(Option.some.inj (congrArg Reply.resp found)).symm, known⟩
    · rintro ⟨rfl, -⟩
      rfl

theorem wanted_iff (answered : ∀ h, client.status h = .ok (told h)) {h : Cid} {status : Status} :
    Wanted client codecs library order opts h status ↔ (opts.cids = [] ∨ h ∈ opts.cids) ∧
      svcStatus (told h) = status ∧ status ≠ undefined ∧ status.matchesFilter opts.status = true ∧
        selected library opts (told h) = true := by
  unfold Wanted
  refine and_congr_right fun _ => ?_
  simp only [reported_iff answered]
  constructor
  · rintro ⟨st, ⟨rfl, known⟩, passes, rfl⟩
    rw [accepts, Bool.and_eq_true] at passes
    rw [status_svcPinStatus] at passes ⊢
    exact ⟨rfl, known, passes⟩
  · rintro ⟨rfl, known, matched, passes⟩
    refine ⟨_, ⟨rfl, known⟩, ?_, status_svcPinStatus _ _ _⟩
    rw [accepts, Bool.and_eq_true, status_svcPinStatus]
    exact ⟨matched, passes⟩

/-- The tracker statuses that the service tells apart; the first one of them in any peer counts. -/
def precedence : List TrackerStatus :=
  [TrackerStatus.error, TrackerStatus.pinQueued, TrackerStatus.pinning, TrackerStatus.pinned]

/-- The first of these statuses among those in the peers of a pin. -/
def leading (gpi : GlobalPinInfo) : Option TrackerStatus :=
  precedence.find? (statusMask .stored gpi).matchesFilter

def ofLeading (leads : Option TrackerStatus) : Status := leads.elim undefined trackerStatusToSvcStatus

theorem svcStatus_eq_ofLeading (gpi : GlobalPinInfo) : svcStatus gpi = ofLeading (leading gpi) := by
  unfold svcStatus leading precedence
  rw [trackerStatusToSvcStatus]
  split_ifs with failed queued pinning pinned
  · rw [find?_cons_of_pos failed]
    rfl
  · rw [find?_cons_of_neg failed, find?_cons_of_pos queued]
    rfl
  · rw [find?_cons_of_neg failed, find?_cons_of_neg queued, find?_cons_of_pos pinning]
    rfl
  · rw [find?_cons_of_neg failed, find?_cons_of_neg queued, find?_cons_of_neg pinning, find?_cons_of_pos pinned]
    rfl
  · rw [find?_cons_of_neg failed, find?_cons_of_neg queued, find?_cons_of_neg pinning, find?_cons_of_neg pinned]
    rfl

theorem ofLeading_inj {a b : Option TrackerStatus} (left : a ∈ none :: precedence.map some)
    (right : b ∈ none :: precedence.map some) (same : ofLeading a = ofLeading b) : a = b := by
  have different : [undefined, failed, queued, pinning, pinned].Nodup := by decide
  exact inj_on_of_nodup_map (show ((none :: precedence.map some).map ofLeading).Nodup from different) left right same

theorem leading_mem (gpi : GlobalPinInfo) : leading gpi ∈ none :: precedence.map some := by
  cases found : leading gpi with
  | none => exact mem_cons_self
  | some status => exact mem_cons_of_mem _ (mem_map_of_mem (mem_of_find?_eq_some found))

theorem svcStatus_eq_iff {a b : GlobalPinInfo} : svcStatus a = svcStatus b ↔ leading a = leading b := by
  rw [svcStatus_eq_ofLeading, svcStatus_eq_ofLeading]
  exact ⟨ofLeading_inj (leading_mem a) (leading_mem b), congrArg ofLeading⟩

theorem svcStatus_eq_undefined_iff {gpi : GlobalPinInfo} : svcStatus gpi = undefined ↔ leading gpi = none := by
  rw [svcStatus_eq_ofLeading]
  exact ⟨ofLeading_inj (leading_mem gpi) mem_cons_self, congrArg ofLeading⟩

/-- The first status among those in all peers of a pin is asked for, and the other filters select the pin. -/
def Matching (library : TextLibrary) (opts : ListOptions) (gpi : GlobalPinInfo) : Prop :=
  ∃ status, leading gpi = some status ∧ (trackerStatusToSvcStatus status).matchesFilter opts.status = true ∧
    selected library opts gpi = true

theorem matching_iff_svcStatus {gpi : GlobalPinInfo} : Matching library opts gpi ↔ svcStatus gpi ≠ undefined ∧
      (svcStatus gpi).matchesFilter opts.status = true ∧ selected library opts gpi = true := by
  rw [Ne, svcStatus_eq_undefined_iff, svcStatus_eq_ofLeading, Matching]
  cases leading gpi with
  | none => exact iff_of_false (fun ⟨_, absurd, _⟩ => by cases absurd) fun absurd => absurd.1 rfl
  | some status => simp [ofLeading]

/-- A pin that is asked for is listed, with the same first status among what is listed for it; no other pin is. -/
structure ListedRightly (library : TextLibrary) (opts : ListOptions) (isListed : Prop) (listed all : GlobalPinInfo) :
    Prop where
  asked : Matching library opts all → isListed ∧ leading listed = leading all ∧ selected library opts listed = true
  other : ¬ Matching library opts all → isListed → leading listed = none ∨ selected library opts listed = false

theorem listedRightly_iff {isListed : Prop} {listed all : GlobalPinInfo} :
    ListedRightly library opts isListed listed all ↔ ∀ status,
      (isListed ∧ svcStatus listed = status ∧ status ≠ undefined ∧ selected library opts listed = true) ↔
        (svcStatus all = status ∧ status ≠ undefined ∧ status.matchesFilter opts.status = true ∧
          selected library opts all = true) := by
  constructor
  · rintro ⟨asked, other⟩ status
    constructor
    · rintro ⟨isListed, rfl, known, passes⟩
      by_cases isAsked : Matching library opts all
      · rw [svcStatus_eq_iff.mpr (asked isAsked).2.1]
        exact ⟨rfl, matching_iff_svcStatus.mp isAsked⟩
      · rcases other isAsked isListed with none | rejected
        · exact absurd (svcStatus_eq_undefined_iff.mpr none) known
        · cases passes.symm.trans rejected
    · rintro ⟨rfl, isAsked⟩
      obtain ⟨isListed, same, passes⟩ := asked (matching_iff_svcStatus.mpr isAsked)
      exact ⟨isListed, svcStatus_eq_iff.mpr same, isAsked.1, passes⟩
  · intro same
    constructor
    · intro asked
      have isAsked := matching_iff_svcStatus.mp asked
      obtain ⟨isListed, sameStatus, -, passes⟩ := (same _).mpr ⟨rfl, isAsked⟩
      exact ⟨isListed, svcStatus_eq_iff.mp sameStatus, passes⟩
    · intro notAsked isListed
      by_contra counts
      rw [not_or, Bool.not_eq_false, ← svcStatus_eq_undefined_iff] at counts
      obtain ⟨sameStatus, isAsked⟩ := (same _).mp ⟨isListed, rfl, counts⟩
      exact notAsked (matching_iff_svcStatus.mpr (sameStatus ▸ isAsked))

/-- The requested CIDs that have a status, with it. -/
def requestedEntries (told : Cid → GlobalPinInfo) (cids : List Cid) : List (Cid × Status) :=
  (cids.filter fun h => svcStatus (told h) ≠ undefined).map fun h => (h, svcStatus (told h))

theorem mem_requestedEntries {cids : List Cid} {h : Cid} {status : Status} : (h, status)
    ∈ requestedEntries told cids ↔ h ∈ cids ∧ svcStatus (told h) = status ∧ status ≠ undefined := by
  unfold requestedEntries
  rw [mem_map]
  constructor
  · rintro ⟨h', member, same⟩
    cases same
    obtain ⟨requested, known⟩ := mem_filter.mp member
    exact ⟨requested, rfl, of_decide_eq_true known⟩
  · rintro ⟨requested, rfl, known⟩
    exact ⟨h, mem_filter.mpr ⟨requested, decide_eq_true known⟩, rfl⟩

theorem nodup_requestedEntries_iff {cids : List Cid} : ((requestedEntries told cids).map Prod.fst).Nodup ↔
      ∀ h ∈ cids, svcStatus (told h) ≠ undefined → cids.count h = 1 := by
  have fsts : (requestedEntries told cids).map Prod.fst = cids.filter fun h => svcStatus (told h) ≠ undefined := by
    unfold requestedEntries
    rw [map_map]
    exact map_id _
  have same_count {h : Cid} (known : svcStatus (told h) ≠ undefined) :
      (cids.filter fun h => svcStatus (told h) ≠ undefined).count h = cids.count h :=
    count_filter (p := fun h => decide (svcStatus (told h) ≠ undefined)) (decide_eq_true known)
  rw [fsts, nodup_iff_count_eq_one]
  constructor
  · intro once h requested known
    rw [← same_count known]
    exact once h (mem_filter.mpr ⟨requested, decide_eq_true known⟩)
  · intro once h member
    obtain ⟨requested, known⟩ := mem_filter.mp member
    rw [same_count (of_decide_eq_true known)]
    exact once h requested (of_decide_eq_true known)

theorem requestedEntries_exact_iff (answered : ∀ h, client.status h = .ok (told h)) (requested : opts.cids ≠ []) :
    (((requestedEntries told opts.cids).map Prod.fst).Nodup ∧ ∀ h status,
      (h, status) ∈ requestedEntries told opts.cids ↔ Wanted client codecs library order opts h status) ↔
      ∀ h ∈ opts.cids, ∀ st, Reported client codecs order h st →
        accepts library opts st = true ∧ opts.cids.count h = 1 := by
  simp only [nodup_requestedEntries_iff, mem_requestedEntries, wanted_iff answered, or_iff_right requested,
    reported_iff answered]
  constructor
  · rintro ⟨once, same⟩ h member st ⟨rfl, known⟩
    obtain ⟨-, -, -, matched, passes⟩ := (same h (svcStatus (told h))).mp ⟨member, rfl, known⟩
    refine ⟨?_, once h member known⟩
    rw [accepts, Bool.and_eq_true, status_svcPinStatus]
    exact ⟨matched, passes⟩
  · intro each
    refine ⟨fun h member known => (each h member _ ⟨rfl, known⟩).2, fun h status => ?_⟩
    constructor
    · rintro ⟨member, rfl, known⟩
      have passes := (each h member _ ⟨rfl, known⟩).1
      rw [accepts, Bool.and_eq_true, status_svcPinStatus] at passes
      exact ⟨member, rfl, known, passes⟩
    · rintro ⟨member, rfl, known, -⟩
      exact ⟨member, rfl, known⟩

/-- The listed pins that are counted, with their status. -/
def streamedEntries (library : TextLibrary) (opts : ListOptions) (out : List GlobalPinInfo) : List (Cid × Status) :=
  (out.filter fun gpi => svcStatus gpi ≠ undefined && selected library opts gpi).map fun gpi =>
    (gpi.cid, svcStatus gpi)

theorem counted_perm_requested (answered : ∀ h, client.status h = .ok (told h)) (requested : opts.cids ≠ []) :
    ((counted client codecs library order opts).map entry).Perm
      ((requestedEntries told opts.cids).map fun e => (codecs.cidString e.1, e.2)) := by
  unfold counted requestedEntries
  rw [if_pos (length_pos_iff.mpr requested), map_map, map_map]
  exact requestedStatuses_perm answered opts.cids

theorem counted_perm_streamed (requested : opts.cids = []) : ((counted client codecs library order opts).map entry).Perm
      ((streamedEntries library opts (client.statusAll (svcStatusToTrackerStatus opts.status)).1).map
        fun e => (codecs.cidString e.1, e.2)) := by
  have none_requested : ¬opts.cids.length > 0 := by
    rw [requested]
    exact Nat.lt_irrefl 0
  unfold counted streamedEntries
  rw [if_neg none_requested, streamedStatuses_entries, map_map]
  exact List.Perm.refl _

section

variable {c : Collector} {now : Clock} {listing : PeerID → List PinInfo × Option RpcError} {members : List PeerID}

theorem mem_streamedEntries (listed : c.members = .ok members) (succeeds : ∀ p, (listing p).2 = none) {h : Cid}
    {status : Status} : (h, status) ∈ streamedEntries library opts (c.globalPinInfoStream order now listing).1 ↔
      let listed := heard (arrivals order listing members) h
      (h.defined = true ∧ listed ≠ []) ∧ svcStatus (merged c.text listed) = status ∧ status ≠ undefined ∧
        selected library opts (merged c.text listed) = true := by
  unfold streamedEntries
  rw [mem_map]
  constructor
  · rintro ⟨gpi, member, same⟩
    cases same
    obtain ⟨sent, kept⟩ := mem_filter.mp member
    rw [Bool.and_eq_true, decide_eq_true_iff] at kept
    obtain ⟨h, defined, some_heard, rfl⟩ := (mem_globalPinInfoStream listed succeeds gpi).mp sent
    rw [cid_merged c.text some_heard]
    exact ⟨⟨defined, some_heard⟩, rfl, kept⟩
  · rintro ⟨⟨defined, some_heard⟩, rfl, known, passes⟩
    refine ⟨merged c.text (heard (arrivals order listing members) h), mem_filter.mpr ⟨?_, ?_⟩, ?_⟩
    · exact (mem_globalPinInfoStream listed succeeds _).mpr ⟨h, defined, some_heard, rfl⟩
    · rw [Bool.and_eq_true, decide_eq_true_iff]
      exact ⟨known, passes⟩
    · rw [cid_merged c.text some_heard]

theorem nodup_streamedEntries (listed : c.members = .ok members) (succeeds : ∀ p, (listing p).2 = none) :
    ((streamedEntries library opts (c.globalPinInfoStream order now listing).1).map Prod.fst).Nodup := by
  unfold streamedEntries
  rw [map_map]
  exact (nodup_globalPinInfoStream listed succeeds).sublist (filter_sublist.map _)

end

end

def plainLibrary : TextLibrary where
  equalFold a b := a == b
  toLower := id
  parseUintError _ := "invalid syntax"
  unmarshalMeta _ := .error "no JSON"

def halfPinned (p : PeerID) : TrackerNode :=
  let tracker := Tracker.new { maxPinQueueSize := 10 } p p
  { tracker := if p = "b" then tracker.track (everywhere ⟨"c"⟩ (-1)) Time.unixZero else tracker
    getState := .ok (DsState.add {} (everywhere ⟨"c"⟩ (-1)))
    ipfs := daemon { recursive := if p = "a" then [⟨"c"⟩] else [] } }

def halfPinnedState : Consensus := { state := DsState.add {} (everywhere ⟨"c"⟩ (-1)) }

def halfPinnedClient : StatusClient :=
  .ofCollector twoMembers .stored (fun _ => Time.unixZero) halfPinnedState (.ofNodes halfPinned Time.unixZero)

def shown (reply : Reply PinList) : Option (ℕ × List (String × Status)) :=
  reply.resp.map fun pinList => (pinList.count, pinList.results.map entry)

def halfPinnedList (query : Values) : Reply PinList := listPins halfPinnedClient plainCodecs plainLibrary .stored query

def pinnedOnes : ListOptions := { matchingStrategy := .exact, status := pinned, limit := 10 }

theorem halfPinned_queued : ((getPinOf halfPinnedClient plainCodecs .stored ⟨"c"⟩).resp.map (·.status))
    = some queued := by
  decide +kernel

theorem statusAll_succeeds {spt : Tracker} {st : DsState} {ipfs : IpfsConn.Connector} {ipfsid : IPFSID}
    {filter : TrackerStatus} {pins : List IPFSPinInfo} (listed : ipfs.pinLs ["recursive", "direct"] = (pins, none)) :
    (spt.statusAll (.ok st) ipfs ipfsid filter).2 = none := by
  unfold Tracker.statusAll
  rw [listed]
  dsimp only
  split
  · rfl
  · split <;> rfl

theorem halfPinned_succeeds :
    Succeeds twoMembers (fun _ => Time.unixZero) halfPinnedState (.ofNodes halfPinned Time.unixZero) ["a", "b"] := by
  have listed : twoMembers.members = .ok ["a", "b"] := rfl
  constructor
  case members => exact listed
  case status =>
    intro h
    unfold Collector.status
    refine globalPinInfoCid_succeeds listed fun err failed => ?_
    by_cases same : h = ⟨"c"⟩
    · subst same
      cases failed
    · have missing : (DsState.add {} (everywhere ⟨"c"⟩ (-1))).store.lookup h = none := AList.lookup_insert_ne same
      change DsState.get (DsState.add {} (everywhere ⟨"c"⟩ (-1))) h = .error err at failed
      rw [DsState.get, missing] at failed
      exact (Except.error.inj failed).symm
  case trackerStatus => exact fun p h => ⟨_, rfl⟩
  case trackerStatusAll =>
    intro p filter
    change Option.map RpcError.other ((halfPinned p).tracker.statusAll (halfPinned p).getState (halfPinned p).ipfs
      (halfPinned p).ipfsid filter).2 = none
    rw [Option.map_eq_none_iff]
    exact statusAll_succeeds (pinLs_of_truthful (daemon_truthful _))

end IpfsCluster.Soundness
