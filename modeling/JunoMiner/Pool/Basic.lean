import JunoMiner.RandomX

/-!
# The RandomX state manager: fields, NUMA placement and VM lookup

The part of `Miner` that owns the RandomX resources: the thread count and mode, the seed, the
dataset, the per-node caches and VMs under NUMA, the legacy cache and VMs otherwise, and the two
placement tables `thread_to_node_` and `thread_to_cpu_`. The constructor's
`detect_numa_topology` fills the tables by the same round-robin loop that `set_thread_count`
runs again; `get_vm_for_thread` finds a worker's VM through them.
-/

namespace JunoMiner

/-- `struct NumaNodeResources`. -/
structure NumaNode where
  /-- `node_id`. -/
  nodeId : Int
  /-- `cache`: the node's own cache (light mode). -/
  cache : Option Nat
  /-- `vms`: one per worker placed on the node. -/
  vms : List (Option Nat)
  /-- `cpu_ids`: the CPUs of the node. -/
  cpuIds : List Nat

/-- `NumaNodeResources()`: node id `-1`, no cache. -/
def NumaNode.empty : NumaNode := ⟨-1, none, [], []⟩

/-- What libnuma reports about the machine. -/
structure Topology where
  /-- `HAVE_NUMA` is compiled in and `numa_available() != -1`. -/
  available : Bool
  /-- `numa_num_configured_nodes()`. -/
  configuredNodes : Nat
  /-- `numa_num_configured_cpus()`. -/
  configuredCpus : Nat
  /-- `numa_node_to_cpus(node, mask)`: the mask, or `none` when the call fails. -/
  nodeMask : Nat → Option (Nat → Bool)

/-- The RandomX state manager's fields of `Miner` (`miner.h`). -/
structure Pool where
  /-- `num_threads_`. -/
  numThreads : Nat
  /-- `fast_mode_`. -/
  fastMode : Bool
  /-- `current_seed_hash_`. -/
  currentSeedHash : Bytes
  /-- `dataset_` (fast mode). -/
  dataset : Option Nat
  /-- `numa_nodes_`. -/
  numaNodes : List NumaNode
  /-- `thread_to_cpu_`. -/
  threadToCpu : List Nat
  /-- `thread_to_node_`. -/
  threadToNode : List Nat
  /-- `numa_available_`. -/
  numaAvailable : Bool
  /-- `num_numa_nodes_`. -/
  numNumaNodes : Nat
  /-- `legacy_cache_`. -/
  legacyCache : Option Nat
  /-- `legacy_vms_`. -/
  legacyVms : List (Option Nat)
  /-- `std::thread::hardware_concurrency()`. -/
  hardwareConcurrency : Nat
  /-- The RandomX library's heap. -/
  rx : RandomX

/-- `std::vector::resize`: keep the first `size` entries, pad with nulls. -/
def resizeVms (vms : List (Option Nat)) (size : Nat) : List (Option Nat) :=
  vms.take size ++ List.replicate (size - vms.length) none

@[simp]
theorem resizeVms_length (vms : List (Option Nat)) (size : Nat) :
    (resizeVms vms size).length = size := by
  simp only [resizeVms, List.length_append, List.length_take, List.length_replicate]
  omega

/-- One turn of the round-robin loop of `detect_numa_topology` and `set_thread_count`: thread
`thread` goes to node `thread % nodeCount` and to the next CPU of that node, counted per node.
`none` when that node's CPU list is empty, where `% cpu_ids.size()` divides by zero. -/
def assignStep (nodes : List NumaNode) (nodeCount : Nat)
    (state : List Nat × List Nat × List Nat) (thread : Nat) :
    Option (List Nat × List Nat × List Nat) :=
  let (counts, toNode, toCpu) := state
  let node := thread % nodeCount
  let cpus := (nodes.getD node .empty).cpuIds
  if cpus.length = 0 then none
  else
    let cpuIndex := counts.getD node 0 % cpus.length
    some (counts.modify (· + 1) node, toNode ++ [node], toCpu ++ [cpus.getD cpuIndex 0])

/-- The round-robin loop: `thread_to_node_` and `thread_to_cpu_` for `numThreads` workers. -/
def assignThreads (nodes : List NumaNode) (nodeCount numThreads : Nat) :
    Option (List Nat × List Nat) :=
  ((List.range numThreads).foldlM (assignStep nodes nodeCount)
    (List.replicate nodeCount 0, [], [])).map fun (_, toNode, toCpu) => (toNode, toCpu)

/-- `Miner::detect_numa_topology`, on a freshly constructed miner; `none` when the assignment
loop divides by zero. -/
def Pool.detectNumaTopology (pool : Pool) (topology : Topology) : Option Pool :=
  if !topology.available || topology.configuredNodes ≤ 1 then
    some { pool with numaAvailable := false, numNumaNodes := 1 }
  else
    let nodeCount := topology.configuredNodes
    let nodes := (List.range nodeCount).map fun node =>
      { NumaNode.empty with
        nodeId := node
        cpuIds := match topology.nodeMask node with
          | some mask => (List.range topology.configuredCpus).filter mask
          | none => [] }
    (assignThreads nodes nodeCount pool.numThreads).map fun (toNode, toCpu) =>
      { pool with
        numaAvailable := true
        numNumaNodes := nodeCount
        numaNodes := nodes
        threadToNode := toNode
        threadToCpu := toCpu }

/-- `Miner::Miner(num_threads, fast_mode)`. -/
def Pool.construct (topology : Topology) (numThreads : Nat) (fastMode : Bool)
    (hardwareConcurrency : Nat) (rx : RandomX) : Option Pool :=
  Pool.detectNumaTopology
    { numThreads, fastMode, currentSeedHash := [], dataset := none, numaNodes := [],
      threadToCpu := [], threadToNode := [], numaAvailable := false, numNumaNodes := 0,
      legacyCache := none, legacyVms := [], hardwareConcurrency, rx }
    topology

/-- `Miner::get_vm_for_thread`: the worker's VM in its node, by its rank among the workers of
that node, else the legacy VM of the same index. -/
def Pool.getVmForThread (pool : Pool) (threadId : Nat) : Option Nat :=
  let node := pool.threadToNode.getD threadId 0
  let vmIndex := (pool.threadToNode.take threadId).count node
  let vms := (pool.numaNodes.getD node .empty).vms
  if pool.numaAvailable ∧ threadId < pool.threadToNode.length ∧
      node < pool.numaNodes.length ∧ vmIndex < vms.length then
    vms.getD vmIndex none
  else if threadId < pool.legacyVms.length then
    pool.legacyVms.getD threadId none
  else
    none

end JunoMiner
