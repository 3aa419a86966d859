import JunoMiner.Pool.Ops
import Mathlib.Data.Int.CardIntervalMod

/-!
# VM slots and the workers' lookup

Every VM handle the miner keeps sits in a slot: `numa_nodes_[node].vms[index]` or
`legacy_vms_[index]`. `get_vm_for_thread` reads one slot per worker, and the rank it computes
makes that slot different for different workers: two workers on one node have different counts
of earlier workers on that node.
-/

namespace JunoMiner

/-- Where a VM handle is kept. -/
inductive Slot where
  /-- `numa_nodes_[node].vms[index]`. -/
  | node (node index : Nat)
  /-- `legacy_vms_[index]`. -/
  | legacy (index : Nat)
  deriving DecidableEq

namespace Pool

variable (pool : Pool)

/-- The handle in a slot; null outside the vectors. -/
def slot : Slot → Option Nat
  | .node node index => (pool.numaNodes.getD node .empty).vms.getD index none
  | .legacy index => pool.legacyVms.getD index none

/-- The slot `get_vm_for_thread` reads for a worker. -/
def threadSlot (threadId : Nat) : Slot :=
  let node := pool.threadToNode.getD threadId 0
  let vmIndex := (pool.threadToNode.take threadId).count node
  if pool.numaAvailable ∧ threadId < pool.threadToNode.length ∧
      node < pool.numaNodes.length ∧ vmIndex < (pool.numaNodes.getD node .empty).vms.length then
    .node node vmIndex
  else .legacy threadId

theorem getVmForThread_eq_slot (threadId : Nat) :
    pool.getVmForThread threadId = pool.slot (pool.threadSlot threadId) := by
  unfold getVmForThread threadSlot
  by_cases numa : pool.numaAvailable ∧ threadId < pool.threadToNode.length ∧
      pool.threadToNode.getD threadId 0 < pool.numaNodes.length ∧
      (pool.threadToNode.take threadId).count (pool.threadToNode.getD threadId 0) <
        (pool.numaNodes.getD (pool.threadToNode.getD threadId 0) .empty).vms.length
  · simp only [numa, and_self, if_true, slot]
  · simp only [numa, if_false, slot]
    split_ifs with inside
    · rfl
    · simp [List.getElem?_eq_none (Nat.le_of_not_lt inside)]

/-- Workers on one node have strictly increasing ranks. -/
theorem count_take_lt {nodes : List Nat} {i j : Nat} (earlier : i < j) (inside : i < nodes.length) :
    (nodes.take i).count (nodes.getD i 0) < (nodes.take j).count (nodes.getD i 0) := by
  have step : (nodes.take (i + 1)).count (nodes.getD i 0) =
      (nodes.take i).count (nodes.getD i 0) + 1 := by
    rw [List.take_succ, List.count_append, List.getElem?_eq_getElem inside]
    simp [List.getD_eq_getElem?_getD, List.getElem?_eq_getElem inside]
  have grows := (List.take_sublist_take_left nodes (show i + 1 ≤ j by omega)).count_le
    (nodes.getD i 0)
  omega

/-- Two workers with the same node and the same rank on it are the same worker. -/
theorem rank_injective {nodes : List Nat} {i j : Nat} (inside_i : i < nodes.length)
    (inside_j : j < nodes.length) (same_node : nodes.getD i 0 = nodes.getD j 0)
    (same_rank : (nodes.take i).count (nodes.getD i 0) = (nodes.take j).count (nodes.getD j 0)) :
    i = j := by
  by_contra different
  rcases Nat.lt_or_gt_of_ne different with earlier | later
  · have := count_take_lt earlier inside_i
    rw [same_node] at same_rank this
    omega
  · have := count_take_lt later inside_j
    rw [← same_node] at same_rank this
    omega

/-- Different workers read different slots. -/
theorem threadSlot_injective {i j : Nat} (same : pool.threadSlot i = pool.threadSlot j) :
    i = j := by
  dsimp only [threadSlot] at same
  split_ifs at same with numa_i numa_j numa_j <;> simp only [Slot.node.injEq,
    Slot.legacy.injEq, reduceCtorEq] at same
  · exact rank_injective numa_i.2.1 numa_j.2.1 same.1 same.2
  · exact same

/-! ## The round-robin placement -/

/-- The placement loop puts worker `t` on node `t % nodeCount`. -/
theorem assignThreads_toNode {nodes : List NumaNode} {nodeCount numThreads : Nat}
    {toNode toCpu : List Nat}
    (assigned : assignThreads nodes nodeCount numThreads = some (toNode, toCpu)) :
    toNode = (List.range numThreads).map (· % nodeCount) := by
  have folded : ∀ (count : Nat) (state : List Nat × List Nat × List Nat),
      (List.range count).foldlM (assignStep nodes nodeCount)
          (List.replicate nodeCount 0, [], []) = some state →
        state.2.1 = (List.range count).map (· % nodeCount) := by
    intro count
    induction count with
    | zero => intro state ran; cases ran; rfl
    | succ count induction =>
      intro state ran
      rw [List.range_succ, List.foldlM_append] at ran
      obtain ⟨middle, first, last⟩ := Option.bind_eq_some.mp ran
      simp only [List.foldlM_cons, List.foldlM_nil, Option.bind_eq_bind] at last
      obtain ⟨next, stepped, done⟩ := Option.bind_eq_some.mp last
      cases done
      obtain ⟨counts, toNode, toCpu⟩ := middle
      simp only [assignStep] at stepped
      split at stepped
      · cases stepped
      · cases stepped
        simp [← induction _ first, List.range_succ]
  obtain ⟨⟨_, _, _⟩, ran, same⟩ := Option.map_eq_some'.mp assigned
  cases same
  exact folded _ _ ran

/-- A loop that reaches an element on which its step always fails fails. -/
theorem foldlM_fails {σ α : Type} {step : σ → α → Option σ} {stuck : α}
    (fails : ∀ state, step state stuck = none) :
    ∀ (items : List α) (init : σ), stuck ∈ items → items.foldlM step init = none
  | item :: items, init, reached => by
    rw [List.foldlM_cons]
    rcases List.mem_cons.mp reached with rfl | later
    · rw [fails]
      rfl
    · cases step init item with
      | none => rfl
      | some state => exact foldlM_fails fails items state later

/-- The placement loop divides by zero at the first worker it puts on a node without CPUs. -/
theorem assignThreads_cpuless {nodes : List NumaNode} {nodeCount numThreads node : Nat}
    (inside : node < nodeCount) (threads : node < numThreads)
    (cpuless : (nodes.getD node .empty).cpuIds = []) :
    assignThreads nodes nodeCount numThreads = none := by
  have fails (state : List Nat × List Nat × List Nat) :
      assignStep nodes nodeCount state node = none := by
    simp only [List.getD_eq_getElem?_getD] at cpuless
    simp [assignStep, Nat.mod_eq_of_lt inside, cpuless]
  simp [assignThreads, foldlM_fails fails _ _ (List.mem_range.mpr threads)]

/-- `detect_numa_topology` divides by zero as soon as a worker lands on a node for which libnuma
reports no CPU, or whose `numa_node_to_cpus` fails. -/
theorem detectNumaTopology_cpuless {pool : Pool} {topology : Topology}
    (available : topology.available = true) (nodes : 2 ≤ topology.configuredNodes) {node : Nat}
    (inside : node < topology.configuredNodes) (threads : node < pool.numThreads)
    (cpuless : topology.nodeMask node = none ∨ ∃ mask, topology.nodeMask node = some mask ∧
      ∀ cpu < topology.configuredCpus, mask cpu = false) :
    pool.detectNumaTopology topology = none := by
  unfold detectNumaTopology
  rw [if_neg (by simp [available]; omega)]
  dsimp only
  rw [assignThreads_cpuless inside threads]
  · rfl
  rw [List.getD_eq_getElem?_getD, List.getElem?_map, List.getElem?_range inside]
  rcases cpuless with failed | ⟨mask, found, none_set⟩
  · simp [failed]
  · simpa [found, List.filter_eq_nil_iff] using none_set

/-- `set_thread_count` runs the same loop over the nodes it kept, and divides by zero the same
way. -/
theorem rebuild_cpuless {pool : Pool} (numa : pool.numaAvailable = true) {node count : Nat}
    (inside : node < pool.numNumaNodes) (threads : node < count)
    (cpuless : (pool.numaNodes.getD node .empty).cpuIds = []) :
    pool.rebuild count = none := by
  have released : (pool.releaseAll.numaNodes.getD node .empty).cpuIds = [] := by
    simp only [releaseAll, numa, if_true, List.getD_eq_getElem?_getD, List.getElem?_map]
      at cpuless ⊢
    cases found : pool.numaNodes[node]? <;> simp_all [NumaNode.empty]
  have same : pool.releaseAll.numNumaNodes = pool.numNumaNodes ∧
      pool.releaseAll.numaAvailable = pool.numaAvailable := by
    unfold releaseAll
    split <;> exact ⟨rfl, rfl⟩
  simp [rebuild, same, numa]
  exact assignThreads_cpuless inside threads released

/-- Two NUMA nodes, the second without CPUs. -/
def cpulessNode : Topology :=
  ⟨true, 2, 2, fun node => if node = 0 then some fun _ => true else none⟩

/-- On two nodes with a CPU-less second one, the constructor with two workers divides by zero, and
so does `set_thread_count(2)` on a miner built with one. -/
theorem cpuless_node_divides_by_zero :
    Pool.construct cpulessNode 2 false 2 (RandomX.fresh (fun _ => false) 1) = none ∧
      (Pool.construct cpulessNode 1 false 2 (RandomX.fresh (fun _ => false) 1)).isSome ∧
      ((Pool.construct cpulessNode 1 false 2 (RandomX.fresh (fun _ => false) 1)).bind
        fun pool => pool.setThreadCount 2) = none := by
  have oneThread : (Pool.construct cpulessNode 1 false 2
      (RandomX.fresh (fun _ => false) 1)).isSome := by decide
  refine ⟨detectNumaTopology_cpuless rfl (by decide) (show 1 < cpulessNode.configuredNodes by decide)
      (by decide) (.inl rfl), oneThread, ?_⟩
  rw [← Option.some_get oneThread, Option.some_bind]
  -- the call is past its shortcut, and its placement loop meets node 1
  exact @rebuild_cpuless (Option.get _ oneThread) rfl 1 2 (by decide : 1 < 2) (by decide) rfl

theorem getD_modify_succ {counts : List Nat} {index node : Nat} (inside : node < counts.length) :
    (counts.modify (· + 1) index).getD node 0 =
      counts.getD node 0 + if index = node then 1 else 0 := by
  simp only [List.getD_eq_getElem?_getD, List.getElem?_modify, List.getElem?_eq_getElem inside]
  split <;> rfl

/-- Counting workers per node, one `++` at a time. -/
theorem foldl_modify_count (place : Nat → Nat) {node : Nat} :
    ∀ (threads counts : List Nat), node < counts.length →
      (threads.foldl (fun counts thread => counts.modify (· + 1) (place thread)) counts).getD
          node 0 = counts.getD node 0 + threads.countP (fun thread => place thread = node)
  | [], _, _ => rfl
  | thread :: threads, counts, inside => by
    rw [List.foldl_cons, foldl_modify_count place threads _ (by simpa using inside),
      getD_modify_succ inside, List.countP_cons]
    simp only [decide_eq_true_eq]
    omega

/-- The workers the placement loop puts on `node`. -/
theorem threadsPerNode_getD {node : Nat} (inside : node < pool.numNumaNodes) :
    pool.threadsPerNode.getD node 0 =
      (List.range pool.numThreads).countP
        (fun thread => pool.threadToNode.getD thread 0 = node) := by
  unfold threadsPerNode
  rw [foldl_modify_count _ _ _ (by simpa using inside)]
  simp [inside]

/-! ## The placement when every node has a CPU -/

section RoundRobin

variable {nodes : List NumaNode} {nodeCount : Nat}

/-- The CPU the placement loop gives worker `thread`: number `thread / N` of its node's CPUs,
wrapped around them. -/
def roundRobinCpu (nodes : List NumaNode) (nodeCount thread : Nat) : Nat :=
  let cpus := (nodes.getD (thread % nodeCount) .empty).cpuIds
  cpus.getD (thread / nodeCount % cpus.length) 0

/-- The state of the placement loop after `count` turns, when no turn divides by zero. -/
def RoundRobin (nodes : List NumaNode) (nodeCount count : Nat)
    (state : List Nat × List Nat × List Nat) : Prop :=
  state.1.length = nodeCount ∧
    (∀ node < nodeCount, state.1.getD node 0 = Nat.count (fun t => t % nodeCount = node) count) ∧
    state.2.1 = (List.range count).map (· % nodeCount) ∧
    state.2.2 = (List.range count).map (roundRobinCpu nodes nodeCount)

theorem count_mod_self (positive : 0 < nodeCount) (thread : Nat) :
    Nat.count (fun t => t % nodeCount = thread % nodeCount) thread = thread / nodeCount := by
  have counted := Nat.count_modEq_card thread positive thread
  simpa [Nat.ModEq] using counted

theorem assignStep_roundRobin (positive : 0 < nodeCount)
    (cpus : ∀ node < nodeCount, (nodes.getD node .empty).cpuIds ≠ []) {count : Nat}
    {state : List Nat × List Nat × List Nat} (before : RoundRobin nodes nodeCount count state) :
    ∃ next, assignStep nodes nodeCount state count = some next ∧
      RoundRobin nodes nodeCount (count + 1) next := by
  obtain ⟨counts, toNode, toCpu⟩ := state
  obtain ⟨length, counted, rfl, rfl⟩ := before
  have inside : count % nodeCount < nodeCount := Nat.mod_lt _ positive
  have nonempty := cpus _ inside
  refine ⟨_, by dsimp only [assignStep]; rw [if_neg (mt List.length_eq_zero.mp nonempty)], ?_⟩
  refine ⟨by simpa using length, fun node below => ?_, by simp [List.range_succ], ?_⟩
  · rw [getD_modify_succ (length ▸ below), counted node below, Nat.count_succ]
  · simp only [List.range_succ, List.map_append, List.map_cons, List.map_nil, roundRobinCpu,
      counted _ inside, count_mod_self positive]

theorem roundRobinCpu_mem (positive : 0 < nodeCount)
    (cpus : ∀ node < nodeCount, (nodes.getD node .empty).cpuIds ≠ []) (thread : Nat) :
    roundRobinCpu nodes nodeCount thread ∈ (nodes.getD (thread % nodeCount) .empty).cpuIds := by
  have nonempty := List.length_pos.mpr (cpus _ (Nat.mod_lt thread positive))
  rw [roundRobinCpu, List.getD_eq_getElem _ _ (Nat.mod_lt _ nonempty)]
  exact List.getElem_mem _

/-- When every node has a CPU, the placement loop of `detect_numa_topology` and
`set_thread_count` never divides by zero: worker `t` goes to node `t % N` and to CPU number
`(t / N) % c` of its node's `c` CPUs, which is a CPU of that node. -/
theorem assignThreads_round_robin (positive : 0 < nodeCount)
    (cpus : ∀ node < nodeCount, (nodes.getD node .empty).cpuIds ≠ []) (numThreads : Nat) :
    assignThreads nodes nodeCount numThreads =
        some ((List.range numThreads).map (· % nodeCount),
          (List.range numThreads).map (roundRobinCpu nodes nodeCount)) ∧
      ∀ thread,
        roundRobinCpu nodes nodeCount thread ∈ (nodes.getD (thread % nodeCount) .empty).cpuIds := by
  have loop (count : Nat) : ∃ state,
      (List.range count).foldlM (assignStep nodes nodeCount) (List.replicate nodeCount 0, [], []) =
        some state ∧ RoundRobin nodes nodeCount count state := by
    induction count with
    | zero => exact ⟨_, rfl, by simp, fun node _ => by simp, rfl, rfl⟩
    | succ count induction =>
      obtain ⟨state, ran, before⟩ := induction
      obtain ⟨next, stepped, after⟩ := assignStep_roundRobin positive cpus before
      refine ⟨next, ?_, after⟩
      rw [List.range_succ, List.foldlM_append, ran]
      simpa using stepped
  obtain ⟨⟨counts, toNode, toCpu⟩, ran, -, -, rfl, rfl⟩ := loop numThreads
  exact ⟨by simp [assignThreads, ran], roundRobinCpu_mem positive cpus⟩

/-- Two NUMA nodes, with two CPUs and one. -/
def twoNodes : List NumaNode :=
  [{ NumaNode.empty with cpuIds := [0, 1] }, { NumaNode.empty with cpuIds := [2] }]

theorem assignThreads_round_robin_on_two_nodes :
    0 < 2 ∧ (∀ node < 2, (twoNodes.getD node .empty).cpuIds ≠ []) ∧
      assignThreads twoNodes 2 5 = some ([0, 1, 0, 1, 0], [0, 2, 1, 2, 0]) :=
  have cpus : ∀ node < 2, (twoNodes.getD node .empty).cpuIds ≠ [] := by decide
  ⟨by decide, cpus, (assignThreads_round_robin (by decide) cpus 5).1.trans rfl⟩

end RoundRobin

/-! ## Which slot a worker reads -/

/-- With no VM in any node, every worker reads its legacy slot. -/
theorem threadSlot_legacy
    (noNodeVms : pool.numaAvailable = true → ∀ node ∈ pool.numaNodes, node.vms = [])
    (threadId : Nat) : pool.threadSlot threadId = .legacy threadId := by
  unfold threadSlot
  rw [if_neg]
  rintro ⟨numa, -, -, ranked⟩
  have empty : (pool.numaNodes.getD (pool.threadToNode.getD threadId 0) .empty).vms = [] := by
    rw [List.getD_eq_getElem?_getD]
    cases found : pool.numaNodes[pool.threadToNode.getD threadId 0]? with
    | none => rfl
    | some node => exact noNodeVms numa node (List.getElem?_mem found)
  simp only [List.getD_eq_getElem?_getD] at empty
  simp [empty] at ranked

/-- A worker's rank among the workers before it on its node. -/
theorem rank_lt {count nodeCount thread : Nat} (inside : thread < count) :
    (List.range thread).countP (fun earlier => earlier % nodeCount = thread % nodeCount) <
      (List.range count).countP (fun other => other % nodeCount = thread % nodeCount) := by
  have within := (List.range_sublist.mpr inside).countP_le
    (fun other => decide (other % nodeCount = thread % nodeCount))
  rw [List.range_succ, List.countP_append] at within
  simp at within
  omega

/-- Under the round-robin placement, with node `n` holding one VM per worker placed on it, every
worker reads its node's slot at its rank. -/
theorem threadSlot_node (numa : pool.numaAvailable = true) (nodes : 0 < pool.numNumaNodes)
    (count : pool.numaNodes.length = pool.numNumaNodes)
    (placed : pool.threadToNode = (List.range pool.numThreads).map (· % pool.numNumaNodes))
    (filled : ∀ node < pool.numNumaNodes, (pool.numaNodes.getD node .empty).vms.length =
      (List.range pool.numThreads).countP (fun other => other % pool.numNumaNodes = node))
    {thread : Nat} (inside : thread < pool.numThreads) :
    pool.threadSlot thread = .node (thread % pool.numNumaNodes)
      ((List.range thread).countP (fun earlier =>
        earlier % pool.numNumaNodes = thread % pool.numNumaNodes)) := by
  have node : pool.threadToNode.getD thread 0 = thread % pool.numNumaNodes := by
    simp [placed, List.getElem?_range inside]
  have rank : (pool.threadToNode.take thread).count (thread % pool.numNumaNodes) =
      (List.range thread).countP (fun earlier =>
        earlier % pool.numNumaNodes = thread % pool.numNumaNodes) := by
    rw [placed, ← List.map_take, List.take_range, Nat.min_eq_left inside.le, List.count_eq_countP,
      List.countP_map]
    exact List.countP_congr fun _ _ => by simp
  unfold threadSlot
  dsimp only
  rw [node, rank, if_pos ⟨numa, by simpa [placed] using inside,
    by rw [count]; exact Nat.mod_lt _ nodes, filled _ (Nat.mod_lt _ nodes) ▸ rank_lt inside⟩]

/-- The slot a worker reads depends only on the placement and on how many VMs each node holds. -/
theorem threadSlot_congr {other : Pool} (numa : other.numaAvailable = pool.numaAvailable)
    (placed : other.threadToNode = pool.threadToNode)
    (lengths : other.numaNodes.map (·.vms.length) = pool.numaNodes.map (·.vms.length))
    (threadId : Nat) : other.threadSlot threadId = pool.threadSlot threadId := by
  have count (nodes : List NumaNode) (node : Nat) :
      (nodes.getD node .empty).vms.length = (nodes.map (·.vms.length)).getD node 0 := by
    simp only [List.getD_eq_getElem?_getD, List.getElem?_map]
    cases nodes[node]? <;> rfl
  unfold threadSlot
  simp only [numa, placed, count, lengths,
    ← List.length_map (f := fun n : NumaNode => n.vms.length)]

/-! ## Ranks against the per-node counts -/

theorem count_take_succ {nodes : List Nat} {i : Nat} (inside : i < nodes.length) (node : Nat) :
    (nodes.take (i + 1)).count node =
      (nodes.take i).count node + if nodes.getD i 0 = node then 1 else 0 := by
  rw [List.take_succ, List.count_append, List.getElem?_eq_getElem inside]
  simp [List.getD_eq_getElem?_getD, List.getElem?_eq_getElem inside, List.count_singleton]

/-- The counting loop of `initialize` and the rank loop of `get_vm_for_thread` count the same
workers. -/
theorem countP_range_getD {nodes : List Nat} {count : Nat} (inside : count ≤ nodes.length)
    (node : Nat) :
    (List.range count).countP (fun thread => nodes.getD thread 0 = node) =
      (nodes.take count).count node := by
  induction count with
  | zero => simp
  | succ count induction =>
    rw [List.range_succ, List.countP_append, induction (by omega), count_take_succ (by omega)]
    simp [List.countP_cons]

/-- Every rank below a node's count among the first `count` workers is some worker's. -/
theorem exists_rank {nodes : List Nat} {node : Nat} :
    ∀ {count index : Nat}, count ≤ nodes.length → index < (nodes.take count).count node →
      ∃ thread < count, nodes.getD thread 0 = node ∧ (nodes.take thread).count node = index
  | 0, _, _, below => by simp at below
  | count + 1, index, inside, below => by
    rw [count_take_succ (by omega)] at below
    by_cases earlier : index < (nodes.take count).count node
    · obtain ⟨thread, before, placed, ranked⟩ := exists_rank (by omega) earlier
      exact ⟨thread, by omega, placed, ranked⟩
    · split_ifs at below with placed
      · exact ⟨count, by omega, placed, by omega⟩
      · omega

/-- For every placement table of `numThreads` nodes below `numNumaNodes`, the map from a worker to
its node and its rank there is a bijection from the workers onto the slots
`(node, index < threads_per_node[node])` that `initialize` creates. With those VMs in the nodes,
every worker reads its own slot on its own node. -/
theorem threadRank_bijective (pool : Pool)
    (length : pool.threadToNode.length = pool.numThreads)
    (bounded : ∀ node ∈ pool.threadToNode, node < pool.numNumaNodes) :
    let rank := fun thread => (pool.threadToNode.getD thread 0,
      (pool.threadToNode.take thread).count (pool.threadToNode.getD thread 0))
    (∀ thread < pool.numThreads, (rank thread).1 < pool.numNumaNodes ∧
      (rank thread).2 < pool.threadsPerNode.getD (rank thread).1 0) ∧
    (∀ thread < pool.numThreads, ∀ other < pool.numThreads, rank thread = rank other →
      thread = other) ∧
    (∀ node < pool.numNumaNodes, ∀ index < pool.threadsPerNode.getD node 0,
      ∃ thread < pool.numThreads, rank thread = (node, index)) ∧
    (pool.numaAvailable = true → pool.numaNodes.length = pool.numNumaNodes →
      (∀ node < pool.numNumaNodes,
        (pool.numaNodes.getD node .empty).vms.length = pool.threadsPerNode.getD node 0) →
      ∀ thread < pool.numThreads,
        pool.threadSlot thread = .node (rank thread).1 (rank thread).2) := by
  intro rank
  have perNode (node : Nat) (inside : node < pool.numNumaNodes) :
      pool.threadsPerNode.getD node 0 = pool.threadToNode.count node := by
    rw [threadsPerNode_getD pool inside, countP_range_getD length.ge, ← length, List.take_length]
  have placed (thread : Nat) (inside : thread < pool.numThreads) :
      (rank thread).1 < pool.numNumaNodes := by
    apply bounded
    simp only [rank, List.getD_eq_getElem?_getD, List.getElem?_eq_getElem (length ▸ inside)]
    exact List.getElem_mem _
  have ranked (thread : Nat) (inside : thread < pool.numThreads) :
      (rank thread).2 < pool.threadsPerNode.getD (rank thread).1 0 := by
    rw [perNode _ (placed thread inside)]
    have := @count_take_lt pool.threadToNode thread pool.threadToNode.length (by omega) (by omega)
    rwa [List.take_length] at this
  refine ⟨fun thread inside => ⟨placed thread inside, ranked thread inside⟩,
    fun thread inside other inside' same => ?_, fun node inside index below => ?_,
    fun numa count filled thread inside => ?_⟩
  · simp only [rank, Prod.mk.injEq] at same
    exact rank_injective (by omega) (by omega) same.1 same.2
  · rw [perNode node inside, ← List.take_length pool.threadToNode] at below
    obtain ⟨thread, before, on_node, ranked⟩ := exists_rank le_rfl below
    exact ⟨thread, by omega, Prod.ext on_node (by simp only [rank, on_node, ranked])⟩
  · unfold threadSlot
    rw [if_pos ⟨numa, by omega, count ▸ placed thread inside,
      filled _ (placed thread inside) ▸ ranked thread inside⟩]

/-- Five workers placed round-robin on two nodes, with three VMs on node 0 and two on node 1. -/
def fiveWorkerPool : Pool :=
  ⟨5, false, [], none, [⟨0, none, [some 1, some 2, some 3], [0]⟩, ⟨1, none, [some 4, some 5], [1]⟩],
    [0, 1, 0, 1, 0], [0, 1, 0, 1, 0], true, 2, none, [], 2, RandomX.fresh (fun _ => false) 1⟩

theorem threadRank_bijective_on_five_workers :
    fiveWorkerPool.threadToNode.length = fiveWorkerPool.numThreads ∧
      (∀ node ∈ fiveWorkerPool.threadToNode, node < fiveWorkerPool.numNumaNodes) ∧
      fiveWorkerPool.threadSlot 4 = .node 0 2 :=
  ⟨rfl, by decide,
    (threadRank_bijective fiveWorkerPool rfl (by decide)).2.2.2 rfl rfl (by decide) 4 (by decide)⟩

end Pool

end JunoMiner
