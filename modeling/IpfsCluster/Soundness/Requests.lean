import IpfsCluster.Proofs.Api.Query
import IpfsCluster.Proofs.Api.Requests

/-! # Parameters of an add request

The parameters of an add request are read back from the query they are sent as.
-/

namespace IpfsCluster.Soundness

open Model Model.Api Golang Proofs.Api

section

variable {codecs : TextCodecs} {q w : Values} {p : AddParams}

theorem carries_setQuery {expiry : String} (carries : Carries codecs q p.toPinOptions expiry) :
    Carries codecs (p.setQuery q) p.toPinOptions expiry := by
  refine carries.of_agree (fun key option => ?_) fun k => ?_
  · simp only [optionNames, List.mem_cons, List.not_mem_nil, or_false] at option
    rcases option with rfl | rfl | rfl | rfl | rfl | rfl | rfl | rfl | rfl | rfl | rfl <;>
      simp [AddParams.setQuery, get_set]
  · simp (disch := exact ne_metaKey (by decide) k) only [AddParams.setQuery, Values.set, AList.lookup_insert_ne]

theorem parseBool_bind {σ β : Type} {s : σ} {name : String} {b : Bool} {update : Bool → σ → σ}
    {rest : Unit → EStateM Error σ β} (written : w.get name = formatBool b) :
    (parseBoolParam w name update >>= rest) s = rest () (update b s) := bind_of_ok (parseBoolParam_of_format _ written)

theorem parseChoice_of_accepted {params : AddParams} {v : String} {accepted : List String} (name : String)
    (update : String → AddParams → AddParams) (known : v ∈ accepted) :
    parseChoice v accepted name update params = .ok () (update v params) := by
  rw [parseChoice, if_pos known]
  rfl

theorem impliedRawLeaves_eq (params : AddParams) :
    (modify fun params => if params.cidVersion > 0 then { params with rawLeaves := true } else params :
      EStateM Error AddParams Unit) params =
      .ok () { params with rawLeaves := decide (params.cidVersion > 0) || params.rawLeaves } := by
  refine congrArg (EStateM.Result.ok ()) ?_
  dsimp only
  split
  next later => rw [decide_eq_true later, Bool.true_or]
  next notLater => rw [decide_eq_false notLater, Bool.false_or]

/-- Parameters that the receiver accepts and does not replace by a default. -/
structure Accepted (p : AddParams) : Prop where
  layout : p.layout ∈ ["trickle", "balanced", ""]
  format : p.format ∈ ["car", "unixfs", ""]
  chunker : p.chunker ≠ ""
  hashFun : p.hashFun ≠ ""
  cidVersion : -2 ^ 63 ≤ p.cidVersion ∧ p.cidVersion < 2 ^ 63

theorem parseAddParams_of_written (accepted : Accepted p) (same : ∀ key, w.get key = (p.setQuery q).get key)
    (params : AddParams) : parseAddParams w params = .ok () { p with toPinOptions := params.toPinOptions } := by
  obtain ⟨layout, chunker, hashFun, format, isLocal, recursive, hidden, wrap, shard, progress, cidVersion, rawLeaves,
      streamChannels, noCopy, noPin⟩ :
      w.get "layout" = p.layout ∧ w.get "chunker" = p.chunker ∧ w.get "hash" = p.hashFun ∧ w.get "format" = p.format ∧
      w.get "local" = formatBool p.isLocal ∧ w.get "recursive" = formatBool p.recursive ∧
      w.get "hidden" = formatBool p.hidden ∧ w.get "wrap-with-directory" = formatBool p.wrap ∧
      w.get "shard" = formatBool p.shard ∧ w.get "progress" = formatBool p.progress ∧
      w.get "cid-version" = p.cidVersion.repr ∧ w.get "raw-leaves" = formatBool p.rawLeaves ∧
      w.get "stream-channels" = formatBool p.streamChannels ∧ w.get "nocopy" = formatBool p.noCopy ∧
      w.get "no-pin" = formatBool p.noPin := by
    simp [same, AddParams.setQuery, get_set]
  unfold parseAddParams
  rw [layout, chunker, hashFun, format, parseStringParam, parseStringParam, bind_of_ok (parseChoice_of_accepted _ _ accepted.layout),
    bind_of_ok (parseParam_of_read _ accepted.chunker rfl), bind_of_ok (parseParam_of_read _ accepted.hashFun rfl),
    bind_of_ok (parseChoice_of_accepted _ _ accepted.format), parseBool_bind isLocal, parseBool_bind recursive,
    parseBool_bind hidden, parseBool_bind wrap, parseBool_bind shard, parseBool_bind progress,
    bind_of_ok (parseIntParam_of_repr _ accepted.cidVersion.1 accepted.cidVersion.2 cidVersion),
    bind_of_ok (impliedRawLeaves_eq _), parseBool_bind rawLeaves, parseBool_bind streamChannels, parseBool_bind noCopy]
  exact parseBoolParam_of_format _ noPin

theorem filled_setQuery (filled : Filled q) : Filled (p.setQuery q) := by
  unfold AddParams.setQuery
  iterate 15 refine Filled.set ?_ _ _
  exact filled

/-- A query is parsed to the arguments it was written from, if each of them has a value. -/
def InverseUrl (codecs : TextCodecs) : Prop :=
  ∀ v, Filled v → ∃ w, codecs.parseQuery (codecs.encodeQuery v) = .ok w ∧ ∀ key, w.lookup key = v.lookup key

/-- Parameters that were written to a query are read back from it, field by field. -/
theorem addParams_read_back (order order' : MapOrder) (now : Time) (url : InverseUrl codecs)
    (writable : Writable codecs p.toPinOptions) (accepted : Accepted p) :
    ∃ text query params, p.toQueryString codecs order = .ok text ∧ codecs.parseQuery text = .ok query ∧
      addParamsFromQuery codecs order' now query = .ok params ∧ { params with metadata := p.metadata } = p ∧
        ∀ k, params.metadata.lookup k = p.metadata.lookup k := by
  obtain ⟨q, expiry, values, carries, given, filled⟩ := queryValues_of_writable order writable
  obtain ⟨q', parsed, same⟩ := url q filled
  have filled' : Filled q' := fun key => same key ▸ filled key
  obtain ⟨query, parsed', same'⟩ := url (p.setQuery q') (filled_setQuery filled')
  have carried : Carries codecs query p.toPinOptions expiry := (carries_setQuery (carries.congr same)).congr same'
  refine ⟨_, query, { p with metadata := PinOptions.metadataFromQuery order' query }, ?_, parsed', ?_, rfl,
    carried.lookup_metadata writable.keys⟩
  · have sent : p.toPinOptions.toQuery codecs order = .ok (codecs.encodeQuery q) := by
      rw [PinOptions.toQuery, values]
      rfl
    simp only [AddParams.toQueryString, sent, bind, Except.bind, parsed]
    rfl
  · rw [addParamsFromQuery, fromQuery_of_carries now writable carried given]
    simp only [parseAddParams_of_written accepted (get_congr same'), writable.update]

end

def plainCodecs : TextCodecs where
  peerString := id
  decodePeer s := if s = "" then .error "empty" else .ok s
  cidString c := c.bytes
  decodeCid s := if s = "" then .error "cid too short" else .ok ⟨s⟩
  multiaddrString := id
  newMultiaddr := .ok
  valueForP2P := .ok
  marshalTime t := .ok t.nanos.repr
  unmarshalTime s := match parseSigned s.toList with
    | none => .error "no number"
    | some nanos => .ok ⟨nanos⟩
  parseDuration _ := .error "no duration"
  encodeQuery v := numbered v.entries
  parseQuery s := match ofNumbered s with
    | none => .error "no query"
    | some entries => .ok (List.toAList entries)

theorem plainCodecs_inverseUrl : InverseUrl plainCodecs := by
  intro v _
  refine ⟨v.entries.toAList, ?_, fun key => ?_⟩
  · simp only [plainCodecs, ofNumbered_numbered]
  · rw [AList.lookup, AList.entries_toAList, List.dlookup_dedupKeys]
    rfl

def sharedFolder : AddParams :=
  { defaultAddParams with
    name := "docs", mode := PinMode.direct, userAllocations := ["A", "B"], expireAt := ⟨5⟩, origins := ["/p2p/C"],
    metadata := AList.singleton "owner" "me", layout := "trickle", cidVersion := 1, wrap := true }

theorem sharedFolder_writable : Writable plainCodecs sharedFolder.toPinOptions := by
  constructor
  case mode => exact .inr rfl
  case replicationMin => decide
  case replicationMax => decide
  case peers =>
    intro p member
    rcases List.mem_pair.mp member with rfl | rfl <;> exact ⟨by decide, rfl, by decide, by decide⟩
  case expiry => exact fun _ => ⟨"5", rfl, rfl, by decide, by decide⟩
  case keys =>
    intro k member
    rw [List.mem_singleton.mp member]
    decide
  case update => rfl
  case origins =>
    intro o member
    rw [List.mem_singleton.mp member]
    exact ⟨⟨rfl, by decide, by decide⟩, _, rfl⟩

theorem addParams_read_back_folder : ∃ text query params, sharedFolder.toQueryString plainCodecs .stored = .ok text ∧
      plainCodecs.parseQuery text = .ok query ∧ addParamsFromQuery plainCodecs .stored ⟨0⟩ query = .ok params ∧
      { params with metadata := sharedFolder.metadata } = sharedFolder ∧
        ∀ k, params.metadata.lookup k = sharedFolder.metadata.lookup k :=
  addParams_read_back .stored .stored ⟨0⟩ plainCodecs_inverseUrl sharedFolder_writable
    ⟨by decide, by decide, by decide, by decide, by decide⟩

end IpfsCluster.Soundness
