import CustomAi.Vllm.OffloadBackend

/-!
# The LRU offloading manager

`vllm/v1/kv_offload/lru_manager.py` on a `CPUBackend`. The dictionary of blocks doubles as the
recency list. A method that mutates the manager returns it.
-/

namespace CustomAi.Vllm

open List

structure LRUOffloadingManager where
  backend : CPUBackend
  blocks : OffloadedBlocks
  events : Option (List OffloadingEvent)

namespace LRUOffloadingManager

/-- `LRUOffloadingManager.__init__` -/
def new (backend : CPUBackend) (enableEvents : Bool) : LRUOffloadingManager :=
  ⟨backend, Dict.empty, if enableEvents then some [] else none⟩

def lookup (m : LRUOffloadingManager) : List BlockHash → ℕ
  | [] => 0
  | blockHash :: rest =>
    match m.blocks.get? blockHash with
    | none => 0
    | some block => if block.isReady then m.lookup rest + 1 else 0

/-- The loop of `prepare_load`. -/
def prepareLoadLoop : List BlockHash → OffloadedBlocks →
    Except PyError (List CPUBlockStatus × OffloadedBlocks)
  | [], d => .ok ([], d)
  | blockHash :: rest, d =>
    match d.get? blockHash with
    | none => .error .keyError
    | some block => do
      ensure (block.isReady = true) (.assertionError "")
      let block := block.setRefCnt (block.refCnt + 1)
      let (blocks, d) ← prepareLoadLoop rest (d.set blockHash block)
      return (block :: blocks, d)

def prepareLoad (m : LRUOffloadingManager) (blockHashes : List BlockHash) :
    Except PyError (CPULoadStoreSpec × LRUOffloadingManager) := do
  let (blocks, d) ← prepareLoadLoop blockHashes m.blocks
  return (CPUBackend.getLoadStoreSpec blocks, { m with blocks := d })

def touchLoop : List BlockHash → OffloadedBlocks → OffloadedBlocks
  | [], d => d
  | blockHash :: rest, d => touchLoop rest ((d.moveToEnd? blockHash).getD d)

def touch (m : LRUOffloadingManager) (blockHashes : List BlockHash) : LRUOffloadingManager :=
  { m with blocks := touchLoop blockHashes.reverse m.blocks }

def completeLoadLoop : List BlockHash → OffloadedBlocks → Except PyError OffloadedBlocks
  | [], d => .ok d
  | blockHash :: rest, d =>
    match d.get? blockHash with
    | none => .error .keyError
    | some block => do
      ensure (block.refCnt > 0) (.assertionError "")
      completeLoadLoop rest (d.set blockHash (block.setRefCnt (block.refCnt - 1)))

def completeLoad (m : LRUOffloadingManager) (blockHashes : List BlockHash) :
    Except PyError LRUOffloadingManager := do
  let d ← completeLoadLoop blockHashes m.blocks
  return { m with blocks := d }

/-- The search of `prepare_store` through the items, with the number of blocks still to find,
which is positive. -/
def findEvictable : List (BlockHash × CPUBlockStatus) → ℤ → Option (List BlockHash)
  | [], _ => none
  | (blockHash, block) :: rest, numBlocksToEvict =>
    if block.refCnt = 0 then
      if numBlocksToEvict - 1 = 0 then some [blockHash]
      else (findEvictable rest (numBlocksToEvict - 1)).map (blockHash :: ·)
    else findEvictable rest numBlocksToEvict

def evictLoop : List BlockHash → CPUBackend → OffloadedBlocks →
    Except PyError (CPUBackend × OffloadedBlocks)
  | [], b, d => .ok (b, d)
  | blockHash :: rest, b, d =>
    match d.get? blockHash with
    | none => .error .keyError
    | some block => evictLoop rest (b.free block) (d.erase blockHash)

def insertLoop (d : OffloadedBlocks) (items : List (BlockHash × CPUBlockStatus)) :
    OffloadedBlocks :=
  items.foldl (fun d item => d.set item.1 item.2) d

def prepareStore (m : LRUOffloadingManager) (blockHashes : List BlockHash) :
    Except PyError (Option PrepareStoreOutput × LRUOffloadingManager) := do
  let blockHashesToStore := blockHashes.filter fun blockHash => !m.blocks.contains blockHash
  let numBlocksToEvict := blockHashesToStore.length - m.backend.getNumFreeBlocks
  match (if numBlocksToEvict > 0 then findEvictable m.blocks.entries numBlocksToEvict
    else some []) with
  | none => return (none, m)
  | some toEvict => do
    let (backend, d) ← evictLoop toEvict m.backend m.blocks
    let events := emitEvent m.events backend toEvict true
    let (blocks, backend) ← backend.allocateBlocks blockHashesToStore
    ensure (blocks.length = blockHashesToStore.length) (.assertionError "")
    let d := insertLoop d (blockHashesToStore.zip blocks)
    return (some ⟨blockHashesToStore, CPUBackend.getLoadStoreSpec blocks, toEvict⟩, ⟨backend, d, events⟩)

/-- The loop of `complete_store` after a success, with the hashes it marks as stored. -/
def storedLoop : List BlockHash → OffloadedBlocks →
    Except PyError (List BlockHash × OffloadedBlocks)
  | [], d => .ok ([], d)
  | blockHash :: rest, d =>
    match d.get? blockHash with
    | none => .error .keyError
    | some block =>
      if block.isReady then storedLoop rest d
      else do
        let (stored, d) ← storedLoop rest (d.set blockHash (block.setRefCnt 0))
        return (blockHash :: stored, d)

/-- The loop of `complete_store` after a failure. -/
def failedLoop : List BlockHash → CPUBackend → OffloadedBlocks →
    Except PyError (CPUBackend × OffloadedBlocks)
  | [], b, d => .ok (b, d)
  | blockHash :: rest, b, d =>
    match d.get? blockHash with
    | none => .error .keyError
    | some block =>
      if block.isReady then failedLoop rest b d
      else failedLoop rest (b.free block) (d.erase blockHash)

def completeStore (m : LRUOffloadingManager) (blockHashes : List BlockHash) (success : Bool) :
    Except PyError LRUOffloadingManager :=
  if success then do
    let (stored, d) ← storedLoop blockHashes m.blocks
    return { m with blocks := d, events := emitEvent m.events m.backend stored false }
  else do
    let (b, d) ← failedLoop blockHashes m.backend m.blocks
    return { m with backend := b, blocks := d }

end LRUOffloadingManager

structure LRURun where
  manager : LRUOffloadingManager
  transfers : Transfers

namespace LRURun

def new (blockSize numBlocks : ℕ) (enableEvents : Bool) : LRURun :=
  ⟨.new (.new blockSize numBlocks) enableEvents, {}⟩

def step (s : LRURun) : OffloadOp → Except PyError LRURun
  | .lookup _ => .ok s
  | .touch blockHashes =>
    .ok ⟨s.manager.touch blockHashes, blockHashes.reverse.foldl Transfers.use s.transfers⟩
  | .prepareStore blockHashes => do
    let (out, manager) ← s.manager.prepareStore blockHashes
    return ⟨manager, out.elim s.transfers s.transfers.prepared⟩
  | .completeStore blockHashes success => do
    let manager ← s.manager.completeStore blockHashes success
    return ⟨manager, s.transfers.completed blockHashes success⟩
  | .prepareLoad blockHashes => do
    let (_, manager) ← s.manager.prepareLoad blockHashes
    return ⟨manager, { s.transfers with loading := s.transfers.loading + blockHashes }⟩
  | .completeLoad blockHashes => do
    let manager ← s.manager.completeLoad blockHashes
    return ⟨manager, { s.transfers with loading := s.transfers.loading - blockHashes }⟩

def Distinct (_ : LRURun) : OffloadOp → Prop
  | .prepareStore blockHashes => blockHashes.Nodup
  | _ => True

/-- Besides, so many loads of one block are never in flight that `ref_cnt` cannot hold their
number. -/
def Countable (s : LRURun) : OffloadOp → Prop
  | .prepareStore blockHashes => blockHashes.Nodup
  | .prepareLoad blockHashes =>
    ∀ blockHash ∈ blockHashes, s.transfers.loading.count blockHash + blockHashes.count blockHash < 2 ^ 31
  | _ => True

end LRURun

end CustomAi.Vllm

/-!
## What the operations of the LRU offloading manager do

Each loop of the manager in terms of the reference counts, the backend ids and the order of the
blocks, and `prepare_store` as a whole.
-/

namespace CustomAi.Vllm

open List

namespace LRUOffloadingManager

open OffloadedBlocks

variable {d d' : OffloadedBlocks} {m m' : LRUOffloadingManager} {hs : List BlockHash}

lemma prepareLoadLoop_spec {blocks : List CPUBlockStatus} (hok : prepareLoadLoop hs d = .ok (blocks, d'))
    (hfit : ∀ h r, refOf d h = some r → r + hs.count h < 2 ^ 31 ∨ h ∉ hs) :
    Recounted d d' ∧ (∀ h, refOf d' h = (refOf d h).map (· + (hs.count h : ℤ))) ∧
      ∀ h ∈ hs, ∃ r, refOf d h = some r ∧ 0 ≤ r := by
  induction hs generalizing d blocks with
  | nil =>
    simp only [prepareLoadLoop, Except.ok.injEq, Prod.mk.injEq] at hok
    obtain ⟨-, rfl⟩ := hok
    exact ⟨.refl d, fun h => by simp, by simp⟩
  | cons x rest ih =>
    unfold prepareLoadLoop at hok
    cases hx : d.get? x with
    | none => rw [hx] at hok; cases hok
    | some block =>
      simp only [hx, bind_eq_ok, ensure_eq_ok, pure_eq_ok, Except.ok.injEq, Prod.mk.injEq, Prod.exists] at hok
      obtain ⟨_, hready, bs, e, hrest, -, rfl⟩ := hok
      have hready' : 0 ≤ block.refCnt := of_decide_eq_true hready
      have hxfit := (hfit x _ (refOf_of_get? hx)).resolve_right (by simp)
      rw [count_cons_self] at hxfit
      have hcast : toCInt32 (block.refCnt + 1) = block.refCnt + 1 := toCInt32_of_lt (by omega) (by omega)
      obtain ⟨hrec, href, hall⟩ := ih hrest (fun h r hr => by
        rw [refOf_set] at hr
        by_cases hh : h = x
        · subst hh
          rw [if_pos rfl, Option.some.injEq] at hr
          omega
        · rw [if_neg hh] at hr
          refine (hfit h r hr).imp (fun hlt => ?_) fun hn hm => hn (mem_cons_of_mem x hm)
          rw [count_cons_of_ne (Ne.symm hh)] at hlt
          exact hlt)
      refine ⟨(Recounted.set hx _).trans hrec, fun h => ?_, fun h hh => ?_⟩
      · rw [href, refOf_set]
        by_cases hh : h = x
        · subst hh
          rw [if_pos rfl, refOf_of_get? hx, count_cons_self, Option.map_some, Option.map_some, Option.some.injEq]
          omega
        · rw [if_neg hh, count_cons_of_ne (Ne.symm hh)]
      · by_cases hhx : h = x
        · exact ⟨block.refCnt, hhx ▸ refOf_of_get? hx, hready'⟩
        · obtain ⟨r, hr, hr0⟩ := hall h ((mem_cons.mp hh).resolve_left hhx)
          rw [refOf_set, if_neg hhx] at hr
          exact ⟨r, hr, hr0⟩

lemma completeLoadLoop_spec (hok : completeLoadLoop hs d = .ok d') (hfit : ∀ h r, refOf d h = some r → r < 2 ^ 31) :
    Recounted d d' ∧ (∀ h, refOf d' h = (refOf d h).map (· - (hs.count h : ℤ))) ∧
      ∀ h ∈ hs, ∃ r, refOf d h = some r ∧ (hs.count h : ℤ) ≤ r := by
  induction hs generalizing d with
  | nil =>
    simp only [completeLoadLoop, Except.ok.injEq] at hok
    subst hok
    exact ⟨.refl d, fun h => by simp, by simp⟩
  | cons x rest ih =>
    unfold completeLoadLoop at hok
    cases hx : d.get? x with
    | none => rw [hx] at hok; cases hok
    | some block =>
      simp only [hx, bind_eq_ok, ensure_eq_ok] at hok
      obtain ⟨_, hpos, hrest⟩ := hok
      have hxfit := hfit x _ (refOf_of_get? hx)
      have hcast : toCInt32 (block.refCnt - 1) = block.refCnt - 1 := toCInt32_of_lt (by omega) (by omega)
      have hfit' : ∀ h r, refOf (d.set x (block.setRefCnt (block.refCnt - 1))) h = some r → r < 2 ^ 31 := by
        intro h r hr
        rw [refOf_set] at hr
        split at hr
        · rw [Option.some.injEq] at hr
          omega
        · exact hfit h r hr
      obtain ⟨hrec, href, hall⟩ := ih hrest hfit'
      refine ⟨(Recounted.set hx _).trans hrec, fun h => ?_, fun h hh => ?_⟩
      · rw [href, refOf_set]
        by_cases hh : h = x
        · subst hh
          rw [if_pos rfl, refOf_of_get? hx, count_cons_self, Option.map_some, Option.map_some, Option.some.injEq]
          omega
        · rw [if_neg hh, count_cons_of_ne (Ne.symm hh)]
      · by_cases hhx : h = x
        · subst hhx
          refine ⟨block.refCnt, refOf_of_get? hx, ?_⟩
          rw [count_cons_self]
          by_cases hr : h ∈ rest
          · obtain ⟨r, hr', hle⟩ := hall h hr
            rw [refOf_set, if_pos rfl, Option.some.injEq] at hr'
            omega
          · rw [count_eq_zero.mpr hr]
            omega
        · obtain ⟨r, hr, hle⟩ := hall h ((mem_cons.mp hh).resolve_left hhx)
          rw [refOf_set, if_neg hhx] at hr
          rw [count_cons_of_ne (Ne.symm hhx)]
          exact ⟨r, hr, hle⟩

lemma touchLoop_get? (hs : List BlockHash) (d : OffloadedBlocks) (h : BlockHash) :
    (touchLoop hs d).get? h = d.get? h := by
  induction hs generalizing d with
  | nil => rfl
  | cons x rest ih =>
    rw [touchLoop, ih]
    cases he : d.moveToEnd? x with
    | none => rfl
    | some e => exact Dict.get?_moveToEnd he h

lemma touchLoop_values (hs : List BlockHash) (d : OffloadedBlocks) : (touchLoop hs d).values.Perm d.values := by
  induction hs generalizing d with
  | nil => exact .refl _
  | cons x rest ih =>
    refine (ih _).trans ?_
    cases he : d.moveToEnd? x with
    | none => exact .refl _
    | some e => exact Dict.values_moveToEnd_perm he

lemma findEvictable_spec (l : List (BlockHash × CPUBlockStatus)) {n : ℕ} (hn : 0 < n) :
    findEvictable l n = if (l.filter fun e => e.2.refCnt = 0).length < n then none
      else some (((l.filter fun e => e.2.refCnt = 0).map Prod.fst).take n) := by
  induction l generalizing n with
  | nil => simp [findEvictable, hn]
  | cons e rest ih =>
    obtain ⟨x, block⟩ := e
    unfold findEvictable
    by_cases hzero : block.refCnt = 0
    · rw [if_pos hzero, filter_cons_of_pos (by simpa using hzero)]
      by_cases hone : n = 1
      · subst hone
        simp
      · obtain ⟨k, rfl⟩ : ∃ k, n = k + 1 := ⟨n - 1, by omega⟩
        have hk : 0 < k := by omega
        have hk0 : ¬((k + 1 : ℕ) : ℤ) - 1 = 0 := by omega
        have hcast : ((k + 1 : ℕ) : ℤ) - 1 = (k : ℤ) := by omega
        rw [if_neg hk0, hcast, ih hk, length_cons]
        by_cases hlt : (rest.filter fun e => e.2.refCnt = 0).length < k
        · rw [if_pos hlt, if_pos (by omega)]
          rfl
        · rw [if_neg hlt, if_neg (by omega)]
          rfl
    · rw [if_neg hzero, filter_cons_of_neg (by simpa using hzero)]
      exact ih hn

lemma evictLoop_spec {b : CPUBackend} (hacc : b.Accounts (ids d)) (hnd : hs.Nodup)
    (hin : ∀ h ∈ hs, d.get? h ≠ none) : ∃ b' d', evictLoop hs b d = .ok (b', d') ∧
      b'.Accounts (ids d') ∧ b'.numBlocks = b.numBlocks ∧
      b'.getNumFreeBlocks = b.getNumFreeBlocks + hs.length ∧ d'.keys = d.keys.filter (· ∉ hs) ∧
      ∀ h, d'.get? h = if h ∈ hs then none else d.get? h := by
  induction hs generalizing b d with
  | nil => exact ⟨b, d, rfl, hacc, rfl, by simp, by simp, by simp⟩
  | cons x rest ih =>
    obtain ⟨block, hx⟩ := Option.ne_none_iff_exists'.mp (hin x mem_cons_self)
    rw [nodup_cons] at hnd
    have hperm : (ids d).Perm (block.blockId :: ids (d.erase x)) := (Dict.values_erase_perm hx).map _
    have hin' : ∀ h ∈ rest, (d.erase x).get? h ≠ none := by
      intro h hh
      have hne : h ≠ x := fun he => hnd.1 (he ▸ hh)
      rw [Dict.get?_erase_of_ne d hne]
      exact hin h (mem_cons_of_mem x hh)
    obtain ⟨b', d', hok, hacc', hnum, hfree, hkeys, hget⟩ :=
      ih (CPUBackend.Accounts.free block (hacc.of_perm hperm)) hnd.2 hin'
    refine ⟨b', d', ?_, hacc', hnum, ?_, ?_, fun h => ?_⟩
    · unfold evictLoop
      simp only [hx]
      exact hok
    · rw [hfree, CPUBackend.getNumFreeBlocks_free, length_cons]
      omega
    · rw [hkeys, Dict.keys_erase, filter_filter]
      simp only [mem_cons, not_or, decide_not, Bool.decide_and, Bool.and_comm]
    · rw [hget, Dict.get?_erase]
      by_cases hh : h = x
      · simp [hh]
      · simp [hh]

variable {items : List (BlockHash × CPUBlockStatus)}

lemma insertLoop_refOf (hnew : ∀ item ∈ items, item.2.refCnt = -1) (d : OffloadedBlocks) (h : BlockHash) :
    refOf (insertLoop d items) h = if h ∈ items.map Prod.fst then some (-1) else refOf d h := by
  induction items generalizing d with
  | nil => rfl
  | cons item rest ih =>
    change refOf (insertLoop (d.set item.1 item.2) rest) h = _
    rw [ih (fun i hi => hnew i (mem_cons_of_mem _ hi))]
    have hset : refOf (d.set item.1 item.2) h = if h = item.1 then some (-1) else refOf d h := by
      unfold refOf
      rw [Dict.get?_set]
      split
      · rw [Option.map_some, hnew item mem_cons_self]
      · rfl
    rw [hset]
    by_cases hr : h ∈ rest.map Prod.fst
    · simp [hr]
    · simp [hr]

lemma insertLoop_get? {h : BlockHash} (hh : h ∉ items.map Prod.fst) (d : OffloadedBlocks) :
    (insertLoop d items).get? h = d.get? h := by
  induction items generalizing d with
  | nil => rfl
  | cons item rest ih =>
    rw [map_cons, mem_cons, not_or] at hh
    change (insertLoop (d.set item.1 item.2) rest).get? h = _
    rw [ih hh.2, Dict.get?_set_of_ne d _ hh.1]

lemma insertLoop_entries (hnd : (items.map Prod.fst).Nodup) {d : OffloadedBlocks}
    (hnew : ∀ h ∈ items.map Prod.fst, d.get? h = none) : (insertLoop d items).entries = d.entries ++ items := by
  induction items generalizing d with
  | nil => exact (append_nil _).symm
  | cons item rest ih =>
    rw [map_cons, nodup_cons] at hnd
    change (insertLoop (d.set item.1 item.2) rest).entries = _
    have hitem : d.get? item.1 = none := hnew _ mem_cons_self
    have hrest : ∀ h ∈ rest.map Prod.fst, (d.set item.1 item.2).get? h = none := by
      intro h hh
      have hne : h ≠ item.1 := fun he => hnd.1 (he ▸ hh)
      rw [Dict.get?_set_of_ne d _ hne]
      exact hnew h (mem_cons_of_mem _ hh)
    rw [ih hnd.2 hrest, Dict.entries_set_of_new _ hitem, append_assoc]
    rfl

lemma storedLoop_spec {stored : List BlockHash} (hok : storedLoop hs d = .ok (stored, d')) : Recounted d d' ∧
      ∀ h, refOf d' h = if h ∈ hs then (refOf d h).map (max 0) else refOf d h := by
  induction hs generalizing d stored with
  | nil =>
    simp only [storedLoop, Except.ok.injEq, Prod.mk.injEq] at hok
    obtain ⟨-, rfl⟩ := hok
    exact ⟨.refl d, by simp⟩
  | cons x rest ih =>
    unfold storedLoop at hok
    cases hx : d.get? x with
    | none => rw [hx] at hok; cases hok
    | some block =>
      have hxr := refOf_of_get? hx
      simp only [hx] at hok
      by_cases hready : block.isReady = true
      · rw [if_pos hready] at hok
        have hready' : 0 ≤ block.refCnt := of_decide_eq_true hready
        obtain ⟨hrec, href⟩ := ih hok
        refine ⟨hrec, fun h => ?_⟩
        simp only [href, mem_cons]
        by_cases hhx : h = x
        · subst hhx
          rw [hxr, Option.map_some, max_eq_right hready']
          simp
        · simp [hhx]
      · rw [if_neg hready] at hok
        have hready' : block.refCnt < 0 := not_le.mp fun hle => hready (decide_eq_true hle)
        simp only [bind_eq_ok, pure_eq_ok, Except.ok.injEq, Prod.mk.injEq, Prod.exists] at hok
        obtain ⟨st, e, hrest, -, rfl⟩ := hok
        obtain ⟨hrec, href⟩ := ih hrest
        refine ⟨(Recounted.set hx _).trans hrec, fun h => ?_⟩
        simp only [href, refOf_set, mem_cons]
        have hzero : toCInt32 0 = 0 := rfl
        by_cases hhx : h = x
        · subst hhx
          rw [if_pos rfl, hxr, hzero, Option.map_some, Option.map_some, max_eq_left hready'.le]
          simp
        · simp [hhx]

lemma failedLoop_spec {b b' : CPUBackend} (hacc : b.Accounts (ids d)) (hok : failedLoop hs b d = .ok (b', d')) :
    b'.Accounts (ids d') ∧ b'.numBlocks = b.numBlocks ∧ d'.keys.Sublist d.keys ∧ ∀ h, d'.get? h =
        if h ∈ hs ∧ ∃ r, refOf d h = some r ∧ r < 0 then none else d.get? h := by
  induction hs generalizing d b with
  | nil =>
    obtain ⟨rfl, rfl⟩ := hok
    exact ⟨hacc, rfl, .refl _, by simp⟩
  | cons x rest ih =>
    unfold failedLoop at hok
    cases hx : d.get? x with
    | none => rw [hx] at hok; cases hok
    | some block =>
      have hxr := refOf_of_get? hx
      simp only [hx] at hok
      by_cases hready : block.isReady = true
      · rw [if_pos hready] at hok
        have hready' : 0 ≤ block.refCnt := of_decide_eq_true hready
        obtain ⟨hacc', hnum, hsub, hget⟩ := ih hacc hok
        refine ⟨hacc', hnum, hsub, fun h => ?_⟩
        simp only [hget, mem_cons]
        by_cases hhx : h = x
        · subst hhx
          have hno : ¬∃ r, refOf d h = some r ∧ r < 0 := by
            rintro ⟨r, hr, hlt⟩
            rw [hxr, Option.some.injEq] at hr
            omega
          simp [hno]
        · simp [hhx]
      · rw [if_neg hready] at hok
        have hready' : block.refCnt < 0 := not_le.mp fun hle => hready (decide_eq_true hle)
        have hperm : (ids d).Perm (block.blockId :: ids (d.erase x)) := (Dict.values_erase_perm hx).map _
        obtain ⟨hacc', hnum, hsub, hget⟩ := ih (CPUBackend.Accounts.free block (hacc.of_perm hperm)) hok
        have herase : ∀ h, h ≠ x → refOf (d.erase x) h = refOf d h := by
          intro h hhx
          unfold refOf
          rw [Dict.get?_erase_of_ne d hhx]
        refine ⟨hacc', hnum, hsub.trans ?_, fun h => ?_⟩
        · rw [Dict.keys_erase]
          exact filter_sublist
        · simp only [hget, mem_cons]
          by_cases hhx : h = x
          · subst hhx
            have hyes : ∃ r, refOf d h = some r ∧ r < 0 := ⟨_, hxr, hready'⟩
            simp [hyes]
          · simp [hhx, herase h hhx, Dict.get?_erase_of_ne d hhx]

/-- How many blocks must go for the new ones among `hs` to fit. -/
def needed (m : LRUOffloadingManager) (hs : List BlockHash) : ℕ :=
  ((hs.filter fun h => !m.blocks.contains h).length - m.backend.getNumFreeBlocks).toNat

lemma victims_eq (m : LRUOffloadingManager) (hs : List BlockHash) :
    (if ((hs.filter fun h => !m.blocks.contains h).length : ℤ) - m.backend.getNumFreeBlocks > 0
      then findEvictable m.blocks.entries
        ((hs.filter fun h => !m.blocks.contains h).length - m.backend.getNumFreeBlocks) else some []) =
    if (idle m.blocks).length < m.needed hs then none else some ((idle m.blocks).take (m.needed hs)) := by
  unfold needed
  by_cases hpos : ((hs.filter fun h => !m.blocks.contains h).length : ℤ) - m.backend.getNumFreeBlocks > 0
  · obtain ⟨n, hn⟩ := Int.eq_ofNat_of_zero_le hpos.le
    have hn0 : 0 < n := by omega
    rw [if_pos hpos, hn, findEvictable_spec _ hn0, map_fst_filter_entries, Int.toNat_natCast]
    have hlen : (m.blocks.entries.filter fun e => e.2.refCnt = 0).length = (idle m.blocks).length := by
      rw [← length_map (f := Prod.fst), map_fst_filter_entries]
    rw [hlen]
  · have hzero : (((hs.filter fun h => !m.blocks.contains h).length : ℤ) -
        m.backend.getNumFreeBlocks).toNat = 0 := by omega
    rw [if_neg hpos, hzero, if_neg (Nat.not_lt_zero _), take_zero]

/-- What a successful `prepare_store` does. -/
structure Prepared (m m' : LRUOffloadingManager) (hs : List BlockHash) (out : PrepareStoreOutput) :
    Prop where
  toStore_eq : out.blockHashesToStore = hs.filter fun h => !m.blocks.contains h
  evicted_eq : out.blockHashesEvicted = (idle m.blocks).take (m.needed hs)
  accounts : m'.backend.Accounts (ids m'.blocks)
  numBlocks : m'.backend.numBlocks = m.backend.numBlocks
  keys_eq : m'.blocks.keys = m.blocks.keys.filter (· ∉ out.blockHashesEvicted) ++ out.blockHashesToStore
  refOf_eq : ∀ h, refOf m'.blocks h = if h ∈ out.blockHashesToStore then some (-1)
    else if h ∈ out.blockHashesEvicted then none else refOf m.blocks h
  idOf_eq : ∀ h, h ∉ out.blockHashesToStore → h ∉ out.blockHashesEvicted → idOf m'.blocks h = idOf m.blocks h

lemma prepareStore_spec (hacc : m.backend.Accounts (ids m.blocks)) (hnd : hs.Nodup) :
    ((idle m.blocks).length < m.needed hs ∧ m.prepareStore hs = .ok (none, m)) ∨
    (m.needed hs ≤ (idle m.blocks).length ∧
      ∃ out m', m.prepareStore hs = .ok (some out, m') ∧ Prepared m m' hs out) := by
  unfold prepareStore
  simp only [victims_eq]
  by_cases hlt : (idle m.blocks).length < m.needed hs
  · rw [if_pos hlt]
    exact .inl ⟨hlt, rfl⟩
  · rw [if_neg hlt]
    refine .inr ⟨not_lt.mp hlt, ?_⟩
    simp only
    have hidle := idle_nodup m.blocks
    set evicted := (idle m.blocks).take (m.needed hs)
    set toStore := hs.filter (fun h => !m.blocks.contains h)
    have hevNodup : evicted.Nodup := hidle.sublist (take_sublist _ _)
    have hstNodup : toStore.Nodup := hnd.filter _
    have hevIn : ∀ h ∈ evicted, refOf m.blocks h = some 0 := by
      intro h hh
      exact mem_idle.mp (mem_of_mem_take hh)
    obtain ⟨b1, d1, hevict, hacc1, hnum1, hfree1, hkeys1, hget1⟩ :=
      evictLoop_spec hacc hevNodup (fun h hh hnone => by
        have hr := hevIn h hh
        rw [refOf_eq_none.mpr hnone] at hr
        cases hr)
    have hlen : evicted.length = m.needed hs := by
      rw [length_take]
      omega
    have hroom : (toStore.length : ℤ) ≤ b1.getNumFreeBlocks := by
      have hneed : m.needed hs = ((toStore.length : ℤ) - m.backend.getNumFreeBlocks).toNat := rfl
      rw [hfree1, hlen]
      omega
    obtain ⟨blocks, b2, halloc, hblocks, hready, hacc2, hnum2⟩ := hacc1.allocateBlocks hroom
    have hfst : (toStore.zip blocks).map Prod.fst = toStore := map_fst_zip hblocks.ge
    have hnew : ∀ h ∈ (toStore.zip blocks).map Prod.fst, d1.get? h = none := by
      intro h hh
      rw [hfst, mem_filter] at hh
      have hno : m.blocks.get? h = none := by
        simpa [Dict.contains] using hh.2
      rw [hget1, hno, ite_self]
    have hentries := insertLoop_entries (by rw [hfst]; exact hstNodup) hnew
    refine ⟨⟨toStore, CPUBackend.getLoadStoreSpec blocks, evicted⟩,
      ⟨b2, insertLoop d1 (toStore.zip blocks), emitEvent m.events b1 evicted true⟩, ?_, ?_⟩
    · rw [hevict]
      simp only [halloc, ok_bind, ensure_of hblocks]
      rfl
    · refine ⟨rfl, rfl, ?_, hnum2.trans hnum1, ?_, fun h => ?_, fun h hst hev => ?_⟩
      · have hids : ids (insertLoop d1 (toStore.zip blocks)) = ids d1 ++ blocks.map (·.blockId) := by
          unfold ids Dict.values
          rw [hentries, map_append, map_append, map_snd_zip hblocks.le]
        rw [hids]
        exact hacc2
      · unfold Dict.keys
        rw [hentries, map_append, hfst]
        exact congrArg (· ++ toStore) hkeys1
      · rw [insertLoop_refOf (fun item hitem => hready _ (of_mem_zip hitem).2), hfst]
        unfold refOf
        rw [hget1]
        by_cases hev : h ∈ evicted
        · simp [hev]
        · simp [hev]
      · have hget : (insertLoop d1 (toStore.zip blocks)).get? h = d1.get? h :=
          insertLoop_get? (by rw [hfst]; exact hst) d1
        change ((insertLoop d1 (toStore.zip blocks)).get? h).map _ = _
        rw [hget, hget1, if_neg hev]
        rfl

end LRUOffloadingManager

end CustomAi.Vllm
