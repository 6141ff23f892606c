import IpfsCluster.Model.Api.Query

/-! # Reading back what was written to a query

Writing an argument changes no other one, and reading an argument looks at nothing else. So it is enough to
follow each argument by itself; metadata keys get a prefix that no other argument has.
-/

namespace IpfsCluster.Proofs.Api

open AList Golang List Model Model.Api PinOptions

section

variable {q : Values}

theorem get_set (key name value : String) : (q.set name value).get key = if key = name then value else q.get key := by
  unfold Values.get Values.set
  split
  next same =>
    subst same
    rw [lookup_insert]
    rfl
  next other => rw [lookup_insert_ne other]

theorem get_empty (key : String) : (∅ : Values).get key = "" := rfl

theorem get_congr {w : Values} (same : ∀ key, w.lookup key = q.lookup key) (key : String) : w.get key = q.get key := by
  rw [Values.get, Values.get, same]

end

section

variable {σ α β : Type} {s s' : σ}

theorem bind_of_ok {x : EStateM Error σ α} {f : α → EStateM Error σ β} {a : α} (done : x s = .ok a s') : (x >>= f)
    s = f a s' := by
  change EStateM.bind x f s = f a s'
  rw [EStateM.bind, done]

theorem parseParam_empty (read : String → Except Error (σ → σ)) : parseParam "" read s = .ok () s := rfl

theorem parseParam_of_read {v : String} {read : String → Except Error (σ → σ)} (update : σ → σ) (present : v ≠ "")
    (ok : read v = .ok update) : parseParam v read s = .ok () (update s) := by
  rw [parseParam, if_pos present, ok]
  rfl

theorem parseBoolParam_of_format {q : Values} {name : String} {b : Bool} (update : Bool → σ → σ)
    (written : q.get name = formatBool b) : parseBoolParam q name update s = .ok () (update b s) := by
  rw [parseBoolParam, written]
  refine parseParam_of_read _ (formatBool_ne_empty b) ?_
  rw [parseBool_formatBool]

theorem parseIntParam_of_repr {q : Values} {name : String} {n : ℤ} (update : ℤ → σ → σ) (lower : -2 ^ 63 ≤ n)
    (upper : n < 2 ^ 63) (written : q.get name = n.repr) : parseIntParam q name update s = .ok () (update n s) := by
  rw [parseIntParam, written]
  refine parseParam_of_read _ (ne_empty_of_parseSigned (parseSigned_repr n)) ?_
  rw [atoi_repr lower upper]

end

section

theorem metaPrefix_injective : Function.Injective fun k => pinOptionsMetaPrefix ++ k := by
  intro k k' same
  have chars := congrArg String.toList same
  rw [String.toList_append, String.toList_append] at chars
  exact String.toList_injective (append_cancel_left chars)

theorem readMetadata_cases (q : Values) (name : String) : (∃ key, key ≠ "" ∧ name = pinOptionsMetaPrefix ++ key ∧
      ∀ metadata, readMetadata q metadata name = metadata.insert key (q.get name)) ∨
      ((∀ key, key ≠ "" → name ≠ pinOptionsMetaPrefix ++ key) ∧
        ∀ metadata, readMetadata q metadata name = metadata) := by
  unfold readMetadata
  by_cases prefixed : pinOptionsMetaPrefix.toList.isPrefixOf name.toList = true
  · obtain ⟨rest, split⟩ := isPrefixOf_iff_prefix.mp prefixed
    have named : name = pinOptionsMetaPrefix ++ String.ofList rest := by
      apply String.toList_injective
      rw [String.toList_append, String.toList_ofList, split]
    have after : name.toList.drop pinOptionsMetaPrefix.length = rest := by
      rw [← split]
      exact drop_left
    rw [prefixed, after]
    by_cases isEmpty : String.ofList rest = ""
    · refine .inr ⟨fun key notEmpty same => notEmpty ?_, fun metadata => ?_⟩
      · rw [← isEmpty]
        exact (metaPrefix_injective (named.symm.trans same)).symm
      · simp [isEmpty]
    · exact .inl ⟨_, isEmpty, named, fun metadata => by simp [isEmpty]⟩
  · refine .inr ⟨fun key _ same => prefixed ?_, fun metadata => ?_⟩
    · rw [same, String.toList_append]
      exact isPrefixOf_iff_prefix.mpr (prefix_append _ _)
    · rw [Bool.eq_false_of_not_eq_true prefixed]
      rfl

theorem lookup_readMetadata (q : Values) (names : List String) (metadata : Metadata) (k : String) :
    (names.foldl (readMetadata q) metadata).lookup k =
      if k ≠ "" ∧ pinOptionsMetaPrefix ++ k ∈ names then some (q.get (pinOptionsMetaPrefix ++ k))
      else metadata.lookup k := by
  induction names generalizing metadata with
  | nil => simp
  | cons name rest ih =>
    rw [foldl_cons, ih]
    rcases readMetadata_cases q name with ⟨key, notEmpty, rfl, read⟩ | ⟨other, skipped⟩
    · rw [read]
      by_cases same : k = key
      · subst same
        simp [notEmpty]
      · have different : pinOptionsMetaPrefix ++ k ≠ pinOptionsMetaPrefix ++ key := fun equal => same (metaPrefix_injective equal)
        simp [lookup_insert_ne same, different]
    · rw [skipped]
      by_cases isEmpty : k = ""
      · simp [isEmpty]
      · simp [Ne.symm (other k isEmpty)]

theorem lookup_metadataFromQuery (order : MapOrder) (q : Values) (k : String) : (metadataFromQuery order q).lookup k =
      if k ≠ "" ∧ pinOptionsMetaPrefix ++ k ∈ q then some (q.get (pinOptionsMetaPrefix ++ k)) else none := by
  rw [metadataFromQuery, lookup_readMetadata]
  simp only [order.mem_visit, AList.mem_keys, AList.lookup_empty]

theorem ne_metaKey {name : String} (other : pinOptionsMetaPrefix.toList.isPrefixOf name.toList = false) (k : String) :
    pinOptionsMetaPrefix ++ k ≠ name := by
  rintro rfl
  rw [String.toList_append, isPrefixOf_iff_prefix.mpr (prefix_append _ _)] at other
  cases other

section

variable {order : MapOrder} {metadata : Metadata}

section

variable (named : ∀ k ∈ metadata, k ≠ "") (q : Values)

include named q

theorem setMetadata_eq : setMetadata order metadata q =
      q.insertAll (fun entry => pinOptionsMetaPrefix ++ entry.1) (fun entry => [entry.2])
        (order.visit [] metadata.entries) := by
  refine foldl_ext _ _ _ fun q entry visited => ?_
  have found := mem_entries_iff.mp ((order.mem_visit _ _ _).mp visited)
  have member : entry.1 ∈ metadata := lookup_isSome.mp (by rw [found]; rfl)
  rw [if_neg (named entry.1 member)]
  rfl

theorem get_setMetadata {name : String} (other : pinOptionsMetaPrefix.toList.isPrefixOf name.toList = false) :
    (setMetadata order metadata q).get name = q.get name := by
  refine congrArg (fun found : Option (List String) => (found.bind List.head?).getD "") ?_
  rw [setMetadata_eq named, lookup_insertAll]
  have none_written : (order.visit [] metadata.entries).filter
      (fun entry => pinOptionsMetaPrefix ++ entry.1 = name) = [] :=
    filter_eq_nil_iff.mpr fun entry _ same => ne_metaKey other entry.1 (of_decide_eq_true same)
  rw [none_written]
  rfl

theorem lookup_setMetadata (k : String) : (setMetadata order metadata q).lookup (pinOptionsMetaPrefix ++ k) =
      ((metadata.lookup k).map fun v => [v]).or (q.lookup (pinOptionsMetaPrefix ++ k)) := by
  rw [setMetadata_eq named]
  exact lookup_insertAll_entries (order.visit_perm _ _) metaPrefix_injective (fun v => [v]) q k

end

end

variable {codecs : TextCodecs} {q : Values} {po : PinOptions} {expiry : String}

/-- The arguments of some options, whatever else is among the arguments. -/
structure Carries (codecs : TextCodecs) (q : Values) (po : PinOptions) (expiry : String) : Prop where
  name : q.get "name" = po.name
  mode : q.get "mode" = po.mode.string
  replication : q.get "replication" = ""
  replicationMin : q.get "replication-min" = po.replicationFactorMin.repr
  replicationMax : q.get "replication-max" = po.replicationFactorMax.repr
  shardSize : q.get "shard-size" = po.shardSize.toNat.repr
  userAllocations : q.get "user-allocations" = join ',' (peersToStrings codecs po.userAllocations)
  expireAt : q.get "expire-at" = expiry
  expireIn : q.get "expire-in" = ""
  pinUpdate : q.get "pin-update" = ""
  origins : q.get "origins" = join ',' (po.origins.map codecs.multiaddrString)
  metadata : ∀ k, q.lookup (pinOptionsMetaPrefix ++ k) = (po.metadata.lookup k).map fun v => [v]

def optionNames : List String :=
  ["name", "mode", "replication", "replication-min", "replication-max", "shard-size", "user-allocations", "expire-at",
    "expire-in", "pin-update", "origins"]

theorem Carries.of_agree {w : Values} (carries : Carries codecs q po expiry)
    (same : ∀ key ∈ optionNames, w.get key = q.get key)
    (sameMeta : ∀ k, w.lookup (pinOptionsMetaPrefix ++ k) = q.lookup (pinOptionsMetaPrefix ++ k)) :
    Carries codecs w po expiry := by
  obtain ⟨name, mode, replication, replicationMin, replicationMax, shardSize, userAllocations, expireAt, expireIn,
    pinUpdate, origins, metadata⟩ := carries
  constructor
  case metadata => exact fun k => (sameMeta k).trans (metadata k)
  all_goals rwa [same _ (by decide)]

theorem Carries.congr {w : Values} (carries : Carries codecs q po expiry) (same : ∀ key, w.lookup key = q.lookup key) :
    Carries codecs w po expiry := carries.of_agree (fun key _ => get_congr same key) fun _ => same _

/-- A text that another library can read back, and that is neither empty nor split by a comma. -/
def Legible {α : Type} (read : String → Except String α) (text : String) (value : α) : Prop :=
  read text = .ok value ∧ text ≠ "" ∧ ',' ∉ text.toList

/-- Options whose values have a text form. -/
structure Writable (codecs : TextCodecs) (po : PinOptions) : Prop where
  mode : po.mode = PinMode.recursive ∨ po.mode = PinMode.direct
  replicationMin : -2 ^ 63 ≤ po.replicationFactorMin ∧ po.replicationFactorMin < 2 ^ 63
  replicationMax : -2 ^ 63 ≤ po.replicationFactorMax ∧ po.replicationFactorMax < 2 ^ 63
  peers : ∀ p ∈ po.userAllocations, p ≠ "" ∧ Legible codecs.decodePeer (codecs.peerString p) p
  expiry : po.expireAt.isZero = false →
    ∃ text, codecs.marshalTime po.expireAt = .ok text ∧ Legible codecs.unmarshalTime text po.expireAt
  keys : ∀ k ∈ po.metadata, k ≠ ""
  update : po.pinUpdate = Cid.undef
  origins : ∀ o ∈ po.origins, Legible codecs.newMultiaddr (codecs.multiaddrString o) o ∧
    ∃ id, codecs.valueForP2P o = .ok id

def ExpiryText (codecs : TextCodecs) (po : PinOptions) (expiry : String) : Prop :=
  (po.expireAt.isZero = true ∧ expiry = "") ∨ (expiry ≠ "" ∧ codecs.unmarshalTime expiry = .ok po.expireAt)

def fixedValues (codecs : TextCodecs) (po : PinOptions) : Values :=
  ((((((∅ : Values).set "replication-min" po.replicationFactorMin.repr).set "replication-max"
    po.replicationFactorMax.repr).set "name" po.name).set "mode" po.mode.string).set "shard-size"
    po.shardSize.toNat.repr).set "user-allocations" (join ',' (peersToStrings codecs po.userAllocations))

def finishValues (codecs : TextCodecs) (order : MapOrder) (po : PinOptions) (q : Values) : Values :=
  if po.origins.length > 0 then
    (setMetadata order po.metadata q).set "origins" (join ',' (po.origins.map codecs.multiaddrString))
  else setMetadata order po.metadata q

section

variable (named : ∀ k ∈ po.metadata, k ≠ "")

include named

theorem get_finishValues {key : String} (other : key ≠ "origins")
    (notMeta : pinOptionsMetaPrefix.toList.isPrefixOf key.toList = false) :
    (finishValues codecs order po q).get key = q.get key := by
  unfold finishValues
  split
  · rw [get_set, if_neg other, get_setMetadata named q notMeta]
  · exact get_setMetadata named q notMeta

theorem get_finishValues_origins (absent : q.get "origins" = "") :
    (finishValues codecs order po q).get "origins" = join ',' (po.origins.map codecs.multiaddrString) := by
  unfold finishValues
  split
  · rw [get_set, if_pos rfl]
  next none_written =>
    rw [get_setMetadata named q (by decide), absent, length_eq_zero_iff.mp (Nat.eq_zero_of_not_pos none_written)]
    rfl

theorem lookup_finishValues (absent : ∀ k, q.lookup (pinOptionsMetaPrefix ++ k) = none) (k : String) :
    (finishValues codecs order po q).lookup (pinOptionsMetaPrefix ++ k) = (po.metadata.lookup k).map fun v => [v] := by
  unfold finishValues
  split
  · rw [Values.set, lookup_insert_ne (ne_metaKey (by decide) k), lookup_setMetadata named, absent, Option.or_none]
  · rw [lookup_setMetadata named, absent, Option.or_none]

theorem carries_finishValues {expiry : String}
    (written : ∀ key, q.get key = if key = "expire-at" then expiry else (fixedValues codecs po).get key)
    (absent : ∀ k, q.lookup (pinOptionsMetaPrefix ++ k) = none) :
    Carries codecs (finishValues codecs order po q) po expiry := by
  constructor
  case origins =>
    refine get_finishValues_origins named ?_
    rw [written]
    rfl
  case metadata => exact lookup_finishValues named absent
  all_goals
    rw [get_finishValues named (by decide) (by decide), written]
    simp [fixedValues, get_set, get_empty]

end

theorem lookup_fixedValues_meta (k : String) : (fixedValues codecs po).lookup (pinOptionsMetaPrefix ++ k) = none := by
  simp (disch := exact ne_metaKey (by decide) k) only [fixedValues, Values.set, lookup_insert_ne, lookup_empty]

/-- No argument has an empty list of values; the text of a query would lack it. -/
def Filled (q : Values) : Prop := ∀ key, q.lookup key ≠ some []

theorem Filled.set (filled : Filled q) (key value : String) : Filled (q.set key value) := by
  intro other
  by_cases same : other = key
  · rw [same, Values.set, lookup_insert]
    exact fun absurd => cons_ne_nil _ _ (Option.some.inj absurd)
  · rw [Values.set, lookup_insert_ne same]
    exact filled other

theorem filled_fixedValues : Filled (fixedValues codecs po) := by
  unfold fixedValues
  iterate 6 refine Filled.set ?_ _ _
  exact fun _ => nofun

theorem filled_finishValues (filled : Filled q) : Filled (finishValues codecs order po q) := by
  have described : Filled (setMetadata order po.metadata q) := by
    refine foldlRecOn _ _ filled fun q filled entry _ => ?_
    split
    · exact filled
    · exact filled.set _ _
  unfold finishValues
  split
  · exact described.set _ _
  · exact described

theorem queryValues_of_writable (order : MapOrder) (writable : Writable codecs po) :
    ∃ q expiry, po.queryValues codecs order = .ok q ∧ Carries codecs q po expiry ∧ ExpiryText codecs po expiry ∧
      Filled q := by
  cases zero : po.expireAt.isZero with
  | true =>
    refine ⟨finishValues codecs order po (fixedValues codecs po), "", ?_, ?_, .inl ⟨zero, rfl⟩,
      filled_finishValues filled_fixedValues⟩
    · unfold queryValues
      rw [zero, writable.update]
      rfl
    · refine carries_finishValues writable.keys (fun key => ?_) lookup_fixedValues_meta
      split
      next same =>
        subst same
        rfl
      · rfl
  | false =>
    obtain ⟨text, marshalled, read, notEmpty, -⟩ := writable.expiry zero
    refine ⟨finishValues codecs order po ((fixedValues codecs po).set "expire-at" text), text, ?_, ?_,
      .inr ⟨notEmpty, read⟩, filled_finishValues (filled_fixedValues.set _ _)⟩
    · unfold queryValues
      rw [zero, writable.update]
      simp only [marshalled]
      rfl
    · exact carries_finishValues writable.keys (fun key => get_set key _ _)
        fun k => (lookup_insert_ne (ne_metaKey (by decide) k)).trans (lookup_fixedValues_meta k)

theorem Carries.lookup_metadata (carries : Carries codecs q po expiry) (named : ∀ k ∈ po.metadata, k ≠ "") (k : String) :
    (metadataFromQuery order q).lookup k = po.metadata.lookup k := by
  rw [lookup_metadataFromQuery]
  have written := carries.metadata k
  cases found : po.metadata.lookup k with
  | none =>
    rw [found] at written
    rw [if_neg fun ⟨_, member⟩ => lookup_eq_none.mp written member]
  | some v =>
    rw [found] at written
    have member : pinOptionsMetaPrefix ++ k ∈ q := lookup_isSome.mp (by rw [written]; rfl)
    have notEmpty := named k (lookup_isSome.mp (by rw [found]; rfl))
    rw [if_pos ⟨notEmpty, member⟩, Values.get, written]
    rfl

theorem split_join_legible {α : Type} {read : String → Except String α} {text : α → String} {values : List α}
    (some_value : values ≠ []) (legible : ∀ x ∈ values, Legible read (text x) x) :
    split ',' (join ',' (values.map text)) = values.map text := by
  refine split_join (fun part member => ?_) (fun none_left => some_value (map_eq_nil_iff.mp none_left))
  obtain ⟨x, listed, rfl⟩ := mem_map.mp member
  exact (legible x listed).2.2

theorem join_legible_ne_empty {α : Type} {read : String → Except String α} {text : α → String} {values : List α}
    (some_value : values ≠ []) (legible : ∀ x ∈ values, Legible read (text x) x) : join ',' (values.map text) ≠ "" := by
  obtain ⟨x, rest, rfl⟩ := exists_cons_of_ne_nil some_value
  exact join_ne_empty (legible x mem_cons_self).2.1 _

section

variable {opts : PinOptions}

theorem peersToStrings_eq (present : ∀ p ∈ po.userAllocations, p ≠ "") :
    peersToStrings codecs po.userAllocations = po.userAllocations.map codecs.peerString :=
  map_congr_left fun p member => if_pos (present p member)

theorem userAllocations_read (writable : Writable codecs po) (fresh : opts.userAllocations = []) :
    parseParam (join ',' (peersToStrings codecs po.userAllocations)) (fun allocs =>
      .ok fun opts : PinOptions => { opts with userAllocations := stringsToPeers codecs (split ',' allocs) }) opts =
      .ok () { opts with userAllocations := po.userAllocations } := by
  have legible p (member : p ∈ po.userAllocations) := (writable.peers p member).2
  rw [peersToStrings_eq fun p member => (writable.peers p member).1]
  by_cases nobody : po.userAllocations = []
  · have unchanged : { opts with userAllocations := po.userAllocations } = opts := by rw [nobody, ← fresh]
    rw [unchanged, nobody]
    exact parseParam_empty _
  · rw [parseParam_of_read _ (join_legible_ne_empty nobody legible) rfl, split_join_legible nobody legible]
    have decoded : stringsToPeers codecs (po.userAllocations.map codecs.peerString) = po.userAllocations := by
      rw [stringsToPeers, filterMap_map]
      refine (filterMap_congr fun p member => ?_).trans filterMap_some
      rw [Function.comp_apply, (legible p member).1]
      rfl
    rw [decoded]

theorem mapM_parseOrigin {origins : List Multiaddr}
    (readable : ∀ o ∈ origins, parseOrigin codecs (codecs.multiaddrString o) = .ok o) :
    (origins.map codecs.multiaddrString).mapM (parseOrigin codecs) = .ok origins := by
  induction origins with
  | nil => rfl
  | cons o rest ih =>
    rw [map_cons, mapM_cons, readable o mem_cons_self, ih fun o member => readable o (mem_cons_of_mem _ member)]
    rfl

theorem origins_read (writable : Writable codecs po) (fresh : opts.origins = []) :
    parseParam (join ',' (po.origins.map codecs.multiaddrString)) (fun originsStr =>
      match (split ',' originsStr).mapM (parseOrigin codecs) with
      | .error err => .error err
      | .ok maOrigins => .ok fun opts : PinOptions => { opts with origins := maOrigins }) opts =
      .ok () { opts with origins := po.origins } := by
  have legible o (member : o ∈ po.origins) := (writable.origins o member).1
  by_cases nowhere : po.origins = []
  · have unchanged : { opts with origins := po.origins } = opts := by rw [nowhere, ← fresh]
    rw [unchanged, nowhere]
    exact parseParam_empty _
  · refine parseParam_of_read (fun opts : PinOptions => { opts with origins := po.origins })
      (join_legible_ne_empty nowhere legible) ?_
    have read : ∀ o ∈ po.origins, parseOrigin codecs (codecs.multiaddrString o) = .ok o := by
      intro o member
      obtain ⟨⟨parsed, -⟩, id, hasPeer⟩ := writable.origins o member
      rw [parseOrigin, parsed]
      simp only [hasPeer]
    rw [split_join_legible nowhere legible, mapM_parseOrigin read]

theorem expiry_read (now : Time) (carries : Carries codecs q po expiry) (given : ExpiryText codecs po expiry)
    (fresh : opts.expireAt = Time.zero) :
    expiryFromQuery codecs now q opts = .ok () { opts with expireAt := po.expireAt } := by
  rw [expiryFromQuery, carries.expireAt, carries.expireIn]
  rcases given with ⟨zero, rfl⟩ | ⟨present, read⟩
  · have unchanged : { opts with expireAt := po.expireAt } = opts := by rw [of_decide_eq_true zero, ← fresh]
    rw [unchanged, if_neg (not_not_intro rfl)]
    exact parseParam_empty _
  · rw [if_pos present]
    refine parseParam_of_read (fun opts : PinOptions => { opts with expireAt := po.expireAt }) present ?_
    simp only [read]

theorem shardSize_read (carries : Carries codecs q po expiry) : parseParam (q.get "shard-size") (fun v =>
      match parseUint v with
      | none => .error (.text "parameter shard_size is invalid")
      | some shardSize => .ok fun opts : PinOptions => { opts with shardSize := BitVec.ofNat 64 shardSize }) opts =
      .ok () { opts with shardSize := po.shardSize } := by
  have parsed := parseUint_repr po.shardSize.isLt
  rw [carries.shardSize]
  refine parseParam_of_read (fun opts : PinOptions => { opts with shardSize := po.shardSize }) ?_ ?_
  · rintro isEmpty
    rw [isEmpty] at parsed
    cases parsed
  · simp only [parsed, BitVec.ofNat_toNat, BitVec.setWidth_eq]

theorem fromString_string (known : po.mode = PinMode.recursive ∨ po.mode = PinMode.direct) :
    PinMode.fromString po.mode.string = po.mode := by
  rcases known with mode | mode
  · rw [mode]
    decide
  · rw [mode]
    decide

theorem fromQuery_of_carries (now : Time) (writable : Writable codecs po) (carries : Carries codecs q po expiry)
    (given : ExpiryText codecs po expiry) : fromQuery codecs order now q {} =
      .ok () { po with metadata := metadataFromQuery order q } := by
  unfold fromQuery
  simp only [carries.replication, ne_eq, not_true_eq_false, if_false]
  refine (bind_of_ok rfl).trans ?_
  rw [carries.name, carries.mode, fromString_string writable.mode,
    bind_of_ok (parseIntParam_of_repr _ writable.replicationMin.1 writable.replicationMin.2 carries.replicationMin),
    bind_of_ok (parseIntParam_of_repr _ writable.replicationMax.1 writable.replicationMax.2 carries.replicationMax)]
  refine (bind_of_ok (shardSize_read carries)).trans ?_
  rw [carries.userAllocations]
  refine (bind_of_ok (userAllocations_read writable rfl)).trans ?_
  rw [bind_of_ok (expiry_read now carries given rfl)]
  refine (bind_of_ok rfl).trans ?_
  rw [carries.pinUpdate, bind_of_ok (parseParam_empty _), carries.origins]
  refine (origins_read writable rfl).trans ?_
  have plain : { po with pinUpdate := Cid.undef } = po := by rw [← writable.update]
  exact congrArg (fun opts : PinOptions => EStateM.Result.ok ()
    { opts with metadata := metadataFromQuery order q }) plain

end

end

end IpfsCluster.Proofs.Api
