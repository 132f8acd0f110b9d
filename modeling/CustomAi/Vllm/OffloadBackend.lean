import CustomAi.Lib.OrderedDict
import CustomAi.Vllm.BlockHasher

/-!
# The CPU backend of KV offloading

`vllm/v1/kv_offload/backend.py`, `backends/cpu.py` and the records of `abstract.py`: blocks are
handed out afresh as long as the backend has never given some away, then from a stack of freed ones.
-/

namespace CustomAi.Vllm

open List Function

/-- What a `c_int32` field holds after `n` is assigned to it. -/
def toCInt32 (n : ℤ) : ℤ := Int.bmod n (2 ^ 32)

lemma toCInt32_of_lt {n : ℤ} (h : 0 ≤ n) (hlt : n < 2 ^ 31) : toCInt32 n = n := by
  unfold toCInt32
  rw [Int.bmod_eq_of_le]
  all_goals omega

/-- `CPUBlockStatus`, where `block_id` is not cut off to its `c_int64`. -/
structure CPUBlockStatus where
  refCnt : ℤ := -1
  blockId : ℕ
  deriving DecidableEq, Repr

def CPUBlockStatus.isReady (b : CPUBlockStatus) : Bool := decide (b.refCnt ≥ 0)

def CPUBlockStatus.setRefCnt (b : CPUBlockStatus) (n : ℤ) : CPUBlockStatus :=
  { b with refCnt := toCInt32 n }

structure CPULoadStoreSpec where
  blockIds : List ℕ
  deriving DecidableEq, Repr

/-- `CPULoadStoreSpec.medium()` -/
def mediumCpu : String := "CPU"

structure PrepareStoreOutput where
  blockHashesToStore : List BlockHash
  storeSpec : CPULoadStoreSpec
  blockHashesEvicted : List BlockHash
  deriving DecidableEq, Repr

structure OffloadingEvent where
  blockHashes : List BlockHash
  blockSize : ℕ
  medium : String
  removed : Bool
  deriving DecidableEq, Repr

structure CPUBackend where
  blockSize : ℕ
  numBlocks : ℕ
  numAllocatedBlocks : ℕ := 0
  allocatedBlocksFreeList : List ℕ := []
  deriving DecidableEq, Repr

namespace CPUBackend

/-- `CPUBackend.__init__` -/
def new (blockSize numBlocks : ℕ) : CPUBackend := { blockSize, numBlocks }

def getNumFreeBlocks (b : CPUBackend) : ℤ :=
  b.allocatedBlocksFreeList.length + b.numBlocks - b.numAllocatedBlocks

/-- `allocate_blocks`: fresh blocks first, then those on top of the stack. -/
def allocateBlocks (b : CPUBackend) (blockHashes : List BlockHash) :
    Except PyError (List CPUBlockStatus × CPUBackend) := do
  let numFreshBlocks := min blockHashes.length (b.numBlocks - b.numAllocatedBlocks)
  let numReusedBlocks := blockHashes.length - numFreshBlocks
  ensure (b.allocatedBlocksFreeList.length ≥ numReusedBlocks) (.assertionError "")
  let fresh := range' b.numAllocatedBlocks numFreshBlocks
  let reused := b.allocatedBlocksFreeList.reverse.take numReusedBlocks
  return ((fresh ++ reused).map fun blockId => { blockId },
    { b with
      numAllocatedBlocks := b.numAllocatedBlocks + numFreshBlocks
      allocatedBlocksFreeList :=
        b.allocatedBlocksFreeList.take (b.allocatedBlocksFreeList.length - numReusedBlocks) })

def free (b : CPUBackend) (block : CPUBlockStatus) : CPUBackend :=
  { b with allocatedBlocksFreeList := b.allocatedBlocksFreeList ++ [block.blockId] }

/-- `get_load_store_spec`, which does not look at the hashes. -/
def getLoadStoreSpec (blocks : List CPUBlockStatus) : CPULoadStoreSpec :=
  ⟨blocks.map (·.blockId)⟩

/-- Each block handed out is held or in the stack, once. -/
structure Accounts (b : CPUBackend) (held : List ℕ) : Prop where
  allocated_le : b.numAllocatedBlocks ≤ b.numBlocks
  perm : (held ++ b.allocatedBlocksFreeList).Perm (List.range b.numAllocatedBlocks)

variable {b b' : CPUBackend} {held held' : List ℕ}

lemma Accounts.new (blockSize numBlocks : ℕ) : (new blockSize numBlocks).Accounts [] :=
  ⟨Nat.zero_le _, .nil⟩

section

variable (h : b.Accounts held)
include h

lemma Accounts.of_perm (hp : held.Perm held') : b.Accounts held' :=
  ⟨h.allocated_le, (hp.symm.append_right _).trans h.perm⟩

lemma Accounts.nodup_append : (held ++ b.allocatedBlocksFreeList).Nodup := h.perm.nodup_iff.mpr nodup_range

lemma Accounts.nodup : held.Nodup := (List.nodup_append.mp h.nodup_append).1

lemma Accounts.disjoint : held.Disjoint b.allocatedBlocksFreeList := by
  intro id hheld hfree
  exact (List.nodup_append.mp h.nodup_append).2.2 id hheld id hfree rfl

lemma Accounts.lt {id : ℕ} (hid : id ∈ held) : id < b.numAllocatedBlocks := by
  have hmem := h.perm.mem_iff.mp (mem_append_left _ hid)
  exact mem_range.mp hmem

lemma Accounts.length_add_free : (held.length : ℤ) + b.getNumFreeBlocks = b.numBlocks := by
  have hlen := h.perm.length_eq
  rw [length_append, length_range] at hlen
  unfold getNumFreeBlocks
  omega

end

lemma Accounts.free (block : CPUBlockStatus) (h : b.Accounts (block.blockId :: held)) :
    (b.free block).Accounts held := by
  refine ⟨h.allocated_le, ?_⟩
  have hp := h.perm
  refine Perm.trans ?_ hp
  change (held ++ (b.allocatedBlocksFreeList ++ [block.blockId])).Perm _
  rw [← append_assoc]
  exact perm_append_singleton _ _

@[simp] lemma getNumFreeBlocks_free (b : CPUBackend) (block : CPUBlockStatus) :
    (b.free block).getNumFreeBlocks = b.getNumFreeBlocks + 1 := by
  simp only [getNumFreeBlocks, CPUBackend.free, length_append, length_singleton]
  omega

lemma Accounts.allocateBlocks (h : b.Accounts held) {blockHashes : List BlockHash}
    (hfree : (blockHashes.length : ℤ) ≤ b.getNumFreeBlocks) :
    ∃ blocks b', b.allocateBlocks blockHashes = .ok (blocks, b') ∧
      blocks.length = blockHashes.length ∧ (∀ block ∈ blocks, block.refCnt = -1) ∧
      b'.Accounts (held ++ blocks.map (·.blockId)) ∧ b'.numBlocks = b.numBlocks := by
  obtain ⟨hle, hperm⟩ := h
  unfold getNumFreeBlocks at hfree
  unfold CPUBackend.allocateBlocks
  simp only
  set fresh := min blockHashes.length (b.numBlocks - b.numAllocatedBlocks)
  have hreused : b.allocatedBlocksFreeList.length ≥ blockHashes.length - fresh := by omega
  rw [ensure_of hreused]
  refine ⟨_, _, rfl, ?_, ?_, ⟨?_, ?_⟩, rfl⟩
  · simp only [length_map, length_append, length_range', length_take, length_reverse]
    omega
  · intro block hblock
    obtain ⟨id, _, rfl⟩ := mem_map.mp hblock
    rfl
  · change b.numAllocatedBlocks + fresh ≤ b.numBlocks
    omega
  · -- the stack is split into what stays and what is popped off its top
    set keep := b.allocatedBlocksFreeList.length - (blockHashes.length - fresh)
    have hsplit : (b.allocatedBlocksFreeList.reverse.take (blockHashes.length - fresh)).Perm
        (b.allocatedBlocksFreeList.drop keep) := by
      rw [take_reverse]
      exact reverse_perm _
    have hrange : range (b.numAllocatedBlocks + fresh) =
        range b.numAllocatedBlocks ++ range' b.numAllocatedBlocks fresh := by
      have happend := range'_append_1 (s := 0) (m := b.numAllocatedBlocks) (n := fresh)
      rw [Nat.zero_add] at happend
      rw [range_eq_range', range_eq_range', happend]
    have hids : ((range' b.numAllocatedBlocks fresh ++
        b.allocatedBlocksFreeList.reverse.take (blockHashes.length - fresh)).map
          fun blockId => ({ blockId } : CPUBlockStatus)).map (·.blockId) = range' b.numAllocatedBlocks fresh ++
          b.allocatedBlocksFreeList.reverse.take (blockHashes.length - fresh) := by
      rw [map_map]
      exact map_id _
    rw [hids]
    rw [hrange, perm_iff_count]
    intro id
    have hold := hperm.count_eq id
    have hpopped := hsplit.count_eq id
    have hstack := congrArg (count id) (take_append_drop keep b.allocatedBlocksFreeList)
    simp only [count_append] at hold hstack ⊢
    omega

end CPUBackend

end CustomAi.Vllm

/-!
## Offloaded blocks and their transfers

The dictionaries of blocks that the offloading managers keep, and what a caller knows of the
transfers it has asked for.
-/

namespace CustomAi.Vllm

open List Function

abbrev OffloadedBlocks := Dict BlockHash CPUBlockStatus

/-- The event for `blockHashes`, if there are any and events are enabled. -/
def emitEvent (events : Option (List OffloadingEvent)) (backend : CPUBackend)
    (blockHashes : List BlockHash) (removed : Bool) : Option (List OffloadingEvent) :=
  if blockHashes = [] then events
  else events.map (· ++ [⟨blockHashes, backend.blockSize, mediumCpu, removed⟩])

namespace OffloadedBlocks

def refOf (d : OffloadedBlocks) (h : BlockHash) : Option ℤ := (d.get? h).map (·.refCnt)

def idOf (d : OffloadedBlocks) (h : BlockHash) : Option ℕ := (d.get? h).map (·.blockId)

def ids (d : OffloadedBlocks) : List ℕ := d.values.map (·.blockId)

/-- The dictionaries have the same blocks in the same order, with other reference counts. -/
structure Recounted (d d' : OffloadedBlocks) : Prop where
  keys_eq : d'.keys = d.keys
  ids_eq : ids d' = ids d
  idOf_eq : ∀ h, idOf d' h = idOf d h

variable {d d' e : OffloadedBlocks} {h : BlockHash} {b : CPUBlockStatus}

lemma Recounted.refl (d : OffloadedBlocks) : Recounted d d := ⟨rfl, rfl, fun _ => rfl⟩

lemma Recounted.trans (h : Recounted d e) (h' : Recounted e d') : Recounted d d' :=
  ⟨h'.keys_eq.trans h.keys_eq, h'.ids_eq.trans h.ids_eq, fun x => (h'.idOf_eq x).trans (h.idOf_eq x)⟩

lemma Recounted.set (hb : d.get? h = some b) (n : ℤ) : Recounted d (d.set h (b.setRefCnt n)) := by
  refine ⟨Dict.keys_set_of_get? hb _, Dict.map_values_set _ hb rfl, fun x => ?_⟩
  unfold idOf
  rw [Dict.get?_set]
  split
  · next hx => rw [hx, hb]; rfl
  · rfl

lemma refOf_set (n : ℤ) (x : BlockHash) :
    refOf (d.set h (b.setRefCnt n)) x = if x = h then some (toCInt32 n) else refOf d x := by
  unfold refOf
  rw [Dict.get?_set]
  split <;> rfl

lemma refOf_of_get? (hb : d.get? h = some b) : refOf d h = some b.refCnt := by
  unfold refOf
  rw [hb]
  rfl

lemma idOf_of_get? (hb : d.get? h = some b) : idOf d h = some b.blockId := by
  unfold idOf
  rw [hb]
  rfl

lemma refOf_eq_none : refOf d h = none ↔ d.get? h = none := Option.map_eq_none_iff

lemma get?_of_refOf {r : ℤ} (hr : refOf d h = some r) : ∃ b, d.get? h = some b ∧ b.refCnt = r :=
  Option.map_eq_some_iff.mp hr

lemma mem_keys_iff_refOf : h ∈ d.keys ↔ refOf d h ≠ none := by
  rw [Dict.mem_keys_iff, Dict.contains, Option.isSome_iff_ne_none, ne_eq, ne_eq, refOf_eq_none]

def idle (d : OffloadedBlocks) : List BlockHash :=
  d.keys.filter fun h => decide (refOf d h = some 0)

lemma idle_nodup (d : OffloadedBlocks) : (idle d).Nodup := d.nodup_keys.filter _

lemma mem_idle : h ∈ idle d ↔ refOf d h = some 0 := by
  unfold idle
  rw [mem_filter, decide_eq_true_eq]
  constructor
  · exact fun hh => hh.2
  · intro hh
    refine ⟨mem_keys_iff_refOf.mpr ?_, hh⟩
    rw [hh]
    simp

lemma map_fst_filter_entries (d : OffloadedBlocks) : (d.entries.filter fun e => e.2.refCnt = 0).map Prod.fst =
      idle d := by
  unfold idle Dict.keys
  rw [filter_map]
  refine congrArg _ (filter_congr fun e he => ?_)
  have hget : refOf d e.1 = some e.2.refCnt := refOf_of_get? ((d.mem_entries_iff _ _).mp he)
  simp [hget]

lemma length_idle_erase (hh : h ∈ idle d) : (idle (d.erase h)).length + 1 = (idle d).length := by
  have hidle : idle (d.erase h) = (idle d).erase h := by
    rw [(idle_nodup d).erase_eq_filter]
    unfold idle
    rw [Dict.keys_erase, filter_filter, filter_filter]
    refine filter_congr fun x _ => ?_
    unfold refOf
    rw [Dict.get?_erase]
    by_cases hx : x = h
    · simp [hx]
    · simp [hx]
  have hpos := length_pos_of_mem hh
  rw [hidle, length_erase_of_mem hh]
  omega

end OffloadedBlocks

inductive OffloadOp
  | lookup (blockHashes : List BlockHash)
  | touch (blockHashes : List BlockHash)
  | prepareStore (blockHashes : List BlockHash)
  | completeStore (blockHashes : List BlockHash) (success : Bool)
  | prepareLoad (blockHashes : List BlockHash)
  | completeLoad (blockHashes : List BlockHash)
  deriving DecidableEq, Repr

/-- What the caller knows: transfers in flight, stored blocks, and when each was last used. -/
structure Transfers where
  storing : Finset BlockHash := ∅
  loading : Multiset BlockHash := 0
  offloaded : Finset BlockHash := ∅
  clock : ℕ := 0
  lastUse : BlockHash → ℕ := fun _ => 0

namespace Transfers

def use (t : Transfers) (blockHash : BlockHash) : Transfers :=
  { t with clock := t.clock + 1, lastUse := Function.update t.lastUse blockHash t.clock }

def evictable (t : Transfers) : Finset BlockHash := t.offloaded.filter (· ∉ t.loading)

/-- A store was prepared with `out`. -/
def prepared (t : Transfers) (out : PrepareStoreOutput) : Transfers :=
  out.blockHashesToStore.foldl use
    { t with
      storing := t.storing ∪ out.blockHashesToStore.toFinset
      offloaded := t.offloaded \ out.blockHashesEvicted.toFinset }

/-- The stores of `blockHashes` have ended. -/
def completed (t : Transfers) (blockHashes : List BlockHash) (success : Bool) : Transfers :=
  { t with
    storing := t.storing \ blockHashes.toFinset
    offloaded :=
      if success then t.offloaded ∪ (t.storing ∩ blockHashes.toFinset) else t.offloaded }

end Transfers

lemma count_coe (hs : List BlockHash) (h : BlockHash) : (hs : Multiset BlockHash).count h = hs.count h :=
  (Multiset.coe_count h hs).trans
    (congrArg (fun i => @count _ i h hs) (lawful_beq_subsingleton _ _))

namespace Transfers

structure InOrder (t : Transfers) (keys : List BlockHash) : Prop where
  sorted : keys.Pairwise fun h h' => t.lastUse h < t.lastUse h'
  used : ∀ h ∈ keys, t.lastUse h < t.clock

def Matches (t : Transfers) (h : BlockHash) : Option ℤ → Prop
  | none => h ∉ t.storing ∧ h ∉ t.offloaded ∧ h ∉ t.loading
  | some r => (h ∈ t.storing ∧ h ∉ t.offloaded ∧ h ∉ t.loading ∧ r = -1) ∨
      (h ∉ t.storing ∧ h ∈ t.offloaded ∧ r = t.loading.count h ∧ r < 2 ^ 31)

variable {t t' : Transfers} {keys keys' : List BlockHash} {h : BlockHash}

lemma InOrder.sublist (ho : t.InOrder keys) (hs : keys'.Sublist keys) : t.InOrder keys' :=
  ⟨ho.sorted.sublist hs, fun h hh => ho.used h (hs.subset hh)⟩

lemma InOrder.use_of_notMem (ho : t.InOrder keys) (hh : h ∉ keys) : (t.use h).InOrder keys := by
  have hsame : ∀ x ∈ keys, (t.use h).lastUse x = t.lastUse x := by
    intro x hx
    have hne : x ≠ h := fun he => hh (he ▸ hx)
    exact update_of_ne hne _ _
  refine ⟨?_, fun x hx => ?_⟩
  · refine ho.sorted.imp_of_mem fun {x y} hx hy hlt => ?_
    rw [hsame x hx, hsame y hy]
    exact hlt
  · rw [hsame x hx]
    exact (ho.used x hx).trans (Nat.lt_succ_self _)

lemma InOrder.use_append (ho : t.InOrder keys) (hh : h ∉ keys) : (t.use h).InOrder (keys ++ [h]) := by
  have hrest := ho.use_of_notMem hh
  have hlast : (t.use h).lastUse h = t.clock := update_self _ _ _
  refine ⟨pairwise_append.mpr ⟨hrest.sorted, pairwise_singleton _ _, ?_⟩, ?_⟩
  · intro x hx y hy
    rw [mem_singleton.mp hy, hlast]
    have hne : x ≠ h := fun he => hh (he ▸ hx)
    have hx' : (t.use h).lastUse x = t.lastUse x := update_of_ne hne _ _
    rw [hx']
    exact ho.used x hx
  · intro x hx
    rcases mem_append.mp hx with hx | hx
    · exact hrest.used x hx
    · rw [mem_singleton.mp hx, hlast]
      exact Nat.lt_succ_self _

variable {hs : List BlockHash}

lemma InOrder.foldl_use (ho : t.InOrder keys) (hnd : hs.Nodup)
    (hnew : ∀ h ∈ hs, h ∉ keys) : (hs.foldl use t).InOrder (keys ++ hs) := by
  induction hs generalizing t keys with
  | nil => simpa using ho
  | cons x rest ih =>
    rw [nodup_cons] at hnd
    have hx := ho.use_append (hnew x mem_cons_self)
    have hrest : ∀ h ∈ rest, h ∉ keys ++ [x] := by
      intro h hh hmem
      rcases mem_append.mp hmem with hm | hm
      · exact hnew h (mem_cons_of_mem x hh) hm
      · exact hnd.1 (mem_singleton.mp hm ▸ hh)
    have hall := ih hx hnd.2 hrest
    rw [append_assoc] at hall
    exact hall

lemma foldl_use_same (hs : List BlockHash) (t : Transfers) :
    (hs.foldl use t).storing = t.storing ∧ (hs.foldl use t).loading = t.loading ∧
      (hs.foldl use t).offloaded = t.offloaded := by
  induction hs generalizing t with
  | nil => exact ⟨rfl, rfl, rfl⟩
  | cons x rest ih => exact ih (t.use x)

variable {r : Option ℤ}

section

variable (hm : t.Matches h r)
include hm

lemma Matches.congr (hs : t'.storing = t.storing)
    (hl : t'.loading = t.loading) (ho : t'.offloaded = t.offloaded) : t'.Matches h r := by
  cases r with
  | none =>
    unfold Matches at *
    rw [hs, hl, ho]
    exact hm
  | some r =>
    unfold Matches at *
    rw [hs, hl, ho]
    exact hm

lemma Matches.storing_iff : h ∈ t.storing ↔ r = some (-1) := by
  cases r with
  | none => simpa using hm.1
  | some r =>
    rcases hm with ⟨hs, -, -, rfl⟩ | ⟨hs, -, hr, -⟩
    · simpa using hs
    · simp only [hs, Option.some.injEq, false_iff]
      omega

lemma Matches.offloaded_iff : h ∈ t.offloaded ↔ ∃ n, r = some n ∧ 0 ≤ n := by
  cases r with
  | none => simpa using hm.2.1
  | some r =>
    rcases hm with ⟨-, ho, -, rfl⟩ | ⟨-, ho, hr, -⟩
    · simpa using ho
    · simp only [ho, Option.some.injEq, true_iff]
      exact ⟨r, rfl, by omega⟩

lemma Matches.evictable_iff : h ∈ t.evictable ↔ r = some 0 := by
  unfold evictable
  rw [Finset.mem_filter]
  cases r with
  | none => simpa using fun ho => absurd ho hm.2.1
  | some r =>
    rcases hm with ⟨-, ho, -, rfl⟩ | ⟨-, ho, hr, -⟩
    · simpa using fun ho' => absurd ho' ho
    · rw [← Multiset.count_eq_zero, Option.some.injEq]
      constructor
      · omega
      · intro hh
        exact ⟨ho, by omega⟩

lemma Matches.load (hready : h ∈ hs → ∃ n, r = some n ∧ 0 ≤ n ∧ n + hs.count h < 2 ^ 31) :
    Matches { t with loading := t.loading + hs } h (r.map (· + (hs.count h : ℤ))) := by
  have hc : (t.loading + (hs : Multiset BlockHash)).count h = t.loading.count h + hs.count h := by
    rw [Multiset.count_add, count_coe]
  by_cases hh : h ∈ hs
  · obtain ⟨n, rfl, hn0, hlt⟩ := hready hh
    rcases hm with ⟨-, -, -, rfl⟩ | ⟨hns, ho, hn, -⟩
    · omega
    · refine .inr ⟨hns, ho, ?_, hlt⟩
      rw [hc, hn]
      rfl
  · have hzero : hs.count h = 0 := count_eq_zero.mpr hh
    have hload : h ∈ t.loading + (hs : Multiset BlockHash) ↔ h ∈ t.loading := by simp [hh]
    rw [hzero] at hc
    cases r with
    | none => exact ⟨hm.1, hm.2.1, fun hl => hm.2.2 (hload.mp hl)⟩
    | some n =>
      rw [Option.map_some, hzero, Nat.cast_zero, add_zero]
      unfold Matches at *
      rw [hload, hc]
      exact hm

lemma Matches.unload (hloaded : h ∈ hs → ∃ n, r = some n ∧ (hs.count h : ℤ) ≤ n) :
    Matches { t with loading := t.loading - hs } h (r.map (· - (hs.count h : ℤ))) := by
  have hc : (t.loading - (hs : Multiset BlockHash)).count h = t.loading.count h - hs.count h := by
    rw [Multiset.count_sub, count_coe]
  have hsub : h ∉ t.loading → h ∉ t.loading - (hs : Multiset BlockHash) :=
    fun hn hl => hn (Multiset.mem_of_le (Multiset.sub_le_self _ _) hl)
  cases r with
  | none => exact ⟨hm.1, hm.2.1, hsub hm.2.2⟩
  | some n =>
    have hle : h ∈ hs → (hs.count h : ℤ) ≤ n := by
      intro hh
      obtain ⟨n', hn', hle⟩ := hloaded hh
      exact Option.some.inj hn' ▸ hle
    rcases hm with ⟨hst, hno, hl, rfl⟩ | ⟨hns, ho, hn, hlt⟩
    · have hh : h ∉ hs := by
        intro hh
        have := hle hh
        omega
      rw [count_eq_zero.mpr hh]
      exact .inl ⟨hst, hno, hsub hl, rfl⟩
    · refine .inr ⟨hns, ho, ?_, ?_⟩
      · change n - (hs.count h : ℤ) = _
        rw [hc]
        by_cases hh : h ∈ hs
        · have := hle hh
          omega
        · rw [count_eq_zero.mpr hh]
          omega
      · change n - (hs.count h : ℤ) < _
        omega

lemma Matches.prepared {out : PrepareStoreOutput} (hnew : h ∈ out.blockHashesToStore → r = none)
    (hev : h ∈ out.blockHashesEvicted → r = some 0) :
    (t.prepared out).Matches h (if h ∈ out.blockHashesToStore then some (-1)
      else if h ∈ out.blockHashesEvicted then none else r) := by
  obtain ⟨hst, hlo, hof⟩ := foldl_use_same out.blockHashesToStore
    { t with
      storing := t.storing ∪ out.blockHashesToStore.toFinset
      offloaded := t.offloaded \ out.blockHashesEvicted.toFinset }
  refine Matches.congr (t := { t with
    storing := t.storing ∪ out.blockHashesToStore.toFinset
    offloaded := t.offloaded \ out.blockHashesEvicted.toFinset }) ?_ hst hlo hof
  by_cases hh : h ∈ out.blockHashesToStore
  · rw [if_pos hh]
    rw [hnew hh] at hm
    exact .inl ⟨by simp [hh], by simp [hm.2.1], hm.2.2, rfl⟩
  · rw [if_neg hh]
    by_cases hhe : h ∈ out.blockHashesEvicted
    · rw [if_pos hhe]
      have hzero := hev hhe
      have hns := hm.storing_iff.not.mpr (by rw [hzero]; simp)
      have hnl := (Finset.mem_filter.mp (hm.evictable_iff.mpr hzero)).2
      exact ⟨by simp [hh, hns], by simp [hhe], hnl⟩
    · rw [if_neg hhe]
      cases r with
      | none => exact ⟨by simp [hh, hm.1], by simp [hm.2.1], hm.2.2⟩
      | some n =>
        rcases hm with ⟨hs, ho, hl, hn⟩ | ⟨hs, ho, hn, hlt⟩
        · exact .inl ⟨by simp [hs], by simp [ho], hl, hn⟩
        · exact .inr ⟨by simp [hs, hh], by simp [ho, hhe], hn, hlt⟩

lemma Matches.stored (hs : List BlockHash) :
    (t.completed hs true).Matches h (if h ∈ hs then r.map (max 0) else r) := by
  unfold completed
  cases r with
  | none =>
    rw [Option.map_none, ite_self]
    exact ⟨by simp [hm.1], by simp [hm.1, hm.2.1], hm.2.2⟩
  | some n =>
    by_cases hh : h ∈ hs
    · rw [if_pos hh]
      rcases hm with ⟨hst, -, hl, rfl⟩ | ⟨hst, ho, hn, hlt⟩
      · refine .inr ⟨by simp [hh], by simp [hst, hh], ?_, by omega⟩
        rw [Multiset.count_eq_zero.mpr hl]
        rfl
      · have hmax : max 0 n = n := max_eq_right (by omega)
        exact .inr ⟨by simp [hh], by simp [ho], hmax.trans hn, hmax.trans_lt hlt⟩
    · rw [if_neg hh]
      rcases hm with ⟨hst, ho, hl, hn⟩ | ⟨hst, ho, hn, hlt⟩
      · exact .inl ⟨by simp [hst, hh], by simp [ho, hh], hl, hn⟩
      · exact .inr ⟨by simp [hst], by simp [ho], hn, hlt⟩

lemma Matches.failed (hs : List BlockHash) :
    (t.completed hs false).Matches h (if h ∈ hs ∧ h ∈ t.storing then none else r) := by
  unfold completed
  by_cases hh : h ∈ hs ∧ h ∈ t.storing
  · rw [if_pos hh]
    rw [hm.storing_iff.mp hh.2] at hm
    rcases hm with ⟨-, ho, hl, -⟩ | ⟨hst, -⟩
    · exact ⟨by simp [hh.1], ho, hl⟩
    · exact absurd hh.2 hst
  · rw [if_neg hh]
    cases r with
    | none => exact ⟨by simp [hm.1], hm.2.1, hm.2.2⟩
    | some n =>
      rcases hm with ⟨hst, ho, hl, hn⟩ | ⟨hst, ho, hn, hlt⟩
      · have hhs : h ∉ hs := fun hhs => hh ⟨hhs, hst⟩
        exact .inl ⟨by simp [hst, hhs], ho, hl, hn⟩
      · exact .inr ⟨by simp [hst], ho, hn, hlt⟩

lemma Matches.neg_iff : (∃ n, r = some n ∧ n < 0) ↔ h ∈ t.storing := by
  rw [hm.storing_iff]
  constructor
  · rintro ⟨n, rfl, hlt⟩
    rcases hm with ⟨-, -, -, rfl⟩ | ⟨-, -, hn, -⟩
    · rfl
    · omega
  · intro hr
    exact ⟨-1, hr, by omega⟩

end

end Transfers

end CustomAi.Vllm
