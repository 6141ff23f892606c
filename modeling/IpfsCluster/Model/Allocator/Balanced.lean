import IpfsCluster.Model.Api.Types

/-! # The balanced allocator

Peers are partitioned by the value of the first metric, each partition by the value of the next one, and so on; picking
rotates over the partitions of every level. `PartitionTree` stacks as many levels as there are metrics left, in place of
the pointers of the source. Every `range` over a map and every `sort.Slice` takes its order from a `MapOrder`.
-/

namespace IpfsCluster.Model.Allocator

open Api Golang

/-- Peers with one value of a metric. The flag of a peer tells whether it has been picked. -/
structure Partition (σ : Type) where
  value : String
  weight : Int64
  aggregatedWeight : Int64
  peers : AList (fun _ : PeerID => Bool)
  sub : Option σ := none

/-- The partitions of one metric and the position of the next pick. -/
structure PartitionedMetric (σ : Type) where
  metricName : String
  curChoosingIndex : ℕ := 0
  noMore : Bool := false
  partitions : List (Partition σ)

/-- As many levels of sub-partitions as there are metrics after the first one. -/
def PartitionTree : ℕ → Type
  | 0 => PartitionedMetric Empty
  | depth + 1 => PartitionedMetric (PartitionTree depth)

section

variable {σ : Type}

def Partition.ofMetric (m : Metric) : Partition σ where
  value := m.value
  weight := m.getWeight
  aggregatedWeight := m.getWeight
  peers := .singleton m.peer false

/-- A partitionable metric joins the partition of its value. -/
def Partition.join (p : Partition σ) (m : Metric) : Partition σ :=
  { p with
    peers := p.peers.insert m.peer false
    weight := p.weight + m.getWeight
    aggregatedWeight := p.aggregatedWeight + m.getWeight }

/-- The body of the loop of `partitionValues`: the finished partitions and those by value. -/
def partitionValue (acc : List (Partition σ) × AList (fun _ : String => Partition σ)) (m : Metric) :
    List (Partition σ) × AList (fun _ : String => Partition σ) :=
  if !m.partitionable then (acc.1 ++ [.ofMetric m], acc.2)
  else match acc.2.lookup m.value with
    | some p => (acc.1, acc.2.insert m.value (p.join m))
    | none => (acc.1, acc.2.insert m.value (.ofMetric m))

def partitionValues (order : MapOrder) (site : List ℕ) (metrics : List Metric) : List (Partition σ) :=
  let (partitions, partitionsByValue) := metrics.foldl partitionValue ([], ∅)
  partitions ++ (order.visit site partitionsByValue.entries).map (·.2)

/-- More weight first, then more aggregated weight, then by value. -/
def Partition.less (p q : Partition σ) : Bool :=
  if p.weight = q.weight then
    if p.aggregatedWeight = q.aggregatedWeight then p.value < q.value
    else q.aggregatedWeight < p.aggregatedWeight
  else q.weight < p.weight

/-- The metrics of the peers of a partition, without those of the metric it was made by. -/
def filteredSet (order : MapOrder) (site : List ℕ) (set : MetricsSet) (rootMetric : String)
    (p : Partition σ) : MetricsSet :=
  (order.visit site set.entries).foldl (fun filtered entry =>
    if entry.1 = rootMetric then filtered
    else entry.2.foldl (fun filtered m =>
      if (p.peers.lookup m.peer).isSome then MetricsSet.append filtered entry.1 m else filtered)
      filtered) ∅

def PartitionTree.addAggregatedWeight : (depth : ℕ) → PartitionTree depth → Int64 → Int64
  | 0, (tree : PartitionedMetric Empty), weight =>
      tree.partitions.foldl (fun sum p => sum + p.aggregatedWeight) weight
  | _ + 1, (tree : PartitionedMetric (PartitionTree _)), weight =>
      tree.partitions.foldl (fun sum p => sum + p.aggregatedWeight) weight

end

/-- Partition by the first metric and every partition by the remaining ones, then sort. -/
def partitionMetrics (order : MapOrder) :
    List ℕ → MetricsSet → (rootMetric : String) → (rest : List String) → PartitionTree rest.length
  | site, set, rootMetric, [] =>
      ({ metricName := rootMetric
         partitions := order.sortSlice (0 :: site) Partition.less
          (partitionValues order (1 :: site) (set.get rootMetric)) } : PartitionedMetric Empty)
  | site, set, rootMetric, next :: rest =>
      let values : List (Partition (PartitionTree rest.length)) :=
        partitionValues order (1 :: site) (set.get rootMetric)
      let partitions := values.mapIdx fun i p =>
        let sub := partitionMetrics order (i :: 2 :: site)
          (filteredSet order (i :: 3 :: site) set rootMetric p) next rest
        { p with
          sub := some sub
          aggregatedWeight := sub.addAggregatedWeight rest.length p.aggregatedWeight }
      ({ metricName := rootMetric
         partitions := order.sortSlice (0 :: site) Partition.less partitions } :
        PartitionedMetric (PartitionTree rest.length))

section

variable {σ : Type} (order : MapOrder) (next : List ℕ → σ → PeerID × σ)

/-- Pick from the sub-partitions, or else the first unused peer that the iteration meets. -/
def Partition.choose (site : List ℕ) (p : Partition σ) : PeerID × Partition σ :=
  match p.sub with
  | some sub => ((next site sub).1, { p with sub := some (next site sub).2 })
  | none =>
    match (order.visit site p.peers.entries).find? (fun entry => !entry.2) with
    | some entry => (entry.1, { p with peers := p.peers.insert entry.1 true })
    | none => ("", p)

/-- Store the current partition after a pick and look in the next partition next time. -/
def PartitionedMetric.advance (pnedm : PartitionedMetric σ) (picked : Partition σ) : PartitionedMetric σ :=
  { pnedm with
    partitions := pnedm.partitions.set pnedm.curChoosingIndex picked
    curChoosingIndex := (pnedm.curChoosingIndex + 1) % pnedm.partitions.length }

/-- Look into at most `left` further partitions, starting at the current one. -/
def PartitionedMetric.chooseLoop (site : List ℕ) : ℕ → PartitionedMetric σ → PeerID × PartitionedMetric σ
  | 0, pnedm => ("", { pnedm with noMore := true })
  | left + 1, pnedm =>
    match pnedm.partitions[pnedm.curChoosingIndex]? with
    | none => ("", pnedm)
    | some curPartition =>
      let (peer, picked) := curPartition.choose order next (pnedm.curChoosingIndex :: site)
      if peer = "" then chooseLoop site left (pnedm.advance picked) else (peer, pnedm.advance picked)

def PartitionedMetric.chooseNext (site : List ℕ) (pnedm : PartitionedMetric σ) : PeerID × PartitionedMetric σ :=
  if pnedm.partitions.length = 0 then ("", pnedm)
  else if pnedm.noMore then ("", pnedm)
  else pnedm.chooseLoop order next site pnedm.partitions.length

end

/-- The next peer in the order of the tree, the empty ID when there is none left. -/
def PartitionTree.chooseNext (order : MapOrder) :
    (depth : ℕ) → List ℕ → PartitionTree depth → PeerID × PartitionTree depth
  | 0, site, tree => PartitionedMetric.chooseNext order (fun _ none => none.elim) site tree
  | depth + 1, site, tree => PartitionedMetric.chooseNext order (chooseNext order depth) site tree

/-- The peers of a partition that have not been picked, given those of a sub-partition. -/
def Partition.pending {σ : Type} (below : σ → List PeerID) (p : Partition σ) : List PeerID :=
  match p.sub with
  | some sub => below sub
  | none => (p.peers.entries.filter (fun entry => !entry.2)).map (·.1)

def PartitionedMetric.pending {σ : Type} (below : σ → List PeerID) (pnedm : PartitionedMetric σ) : List PeerID :=
  pnedm.partitions.flatMap (Partition.pending below)

def PartitionTree.pending : (depth : ℕ) → PartitionTree depth → List PeerID
  | 0, tree => PartitionedMetric.pending (fun none => none.elim) tree
  | depth + 1, tree => PartitionedMetric.pending (pending depth) tree

def sortedPeersLoop (order : MapOrder) (site : List ℕ) (depth : ℕ) : ℕ → ℕ → PartitionTree depth → List PeerID
  | 0, _, _ => []
  | fuel + 1, tick, tree =>
    let (peer, picked) := tree.chooseNext order depth (tick :: site)
    if peer = "" then [] else peer :: sortedPeersLoop order site depth fuel (tick + 1) picked

/-- Pick until nothing is left. Every pick uses up a pending peer, which bounds the loop. -/
def sortedPeers (order : MapOrder) (site : List ℕ) (depth : ℕ) (tree : PartitionTree depth) : List PeerID :=
  sortedPeersLoop order site depth ((tree.pending depth).length + 1) 0 tree

/-- The allocator: priority peers first, each group in the order of its own tree. -/
def allocate (order : MapOrder) (allocateBy : List String) (candidates priority : MetricsSet) :
    Except Error (List PeerID) :=
  match allocateBy with
  | [] => .error (.text "runtime error: index out of range [0] with length 0")
  | rootMetric :: rest =>
    let candidatePartition := partitionMetrics order [0] candidates rootMetric rest
    let priorityPartition := partitionMetrics order [1] priority rootMetric rest
    let first := sortedPeers order [2] rest.length priorityPartition
    let last := sortedPeers order [3] rest.length candidatePartition
    .ok (first ++ last)

end IpfsCluster.Model.Allocator
